import TokenSearch.Proofs.Artifact.Atomic
import TokenSearch.Proofs.Service.Interleaving
import TokenSearch.Proofs.Service.Recovery

namespace TokenSearch

/-! Builds side by side install what they would install alone, unless a worker takes the token rows of
another artifact than the one whose file table its build has loaded. -/

open Data Artifact
open Store (bare bareDisk)

namespace Store

/-- Files hold what they held; there may be more of them. -/
structure Grown (disk after : Disk) : Prop where
  next : disk.next ≤ after.next
  records : ∀ serial, serial < disk.next → after.record? serial = disk.record? serial

variable {store : Store} {disk after last : Disk} {home : List Text.RawText}
  {entries : Disk.Entries} {kind : Tables → Prop}

theorem Grown.trans (first : Grown disk after) (second : Grown after last) : Grown disk last where
  next := Nat.le_trans first.next second.next
  records := by
    intro serial old
    rw [second.records serial (Nat.lt_of_lt_of_le old first.next), first.records serial old]

theorem Grown.body_eq (grown : Grown disk after) {serial : Nat} (old : serial < disk.next) :
    after.body serial = disk.body serial := by
  rw [Disk.body, grown.records serial old, ← Disk.body]

theorem grown_saved (disk : Disk) (home : List Text.RawText) (nonce : String) (tables : Tables) :
    Grown disk (saved disk home nonce tables) :=
  ⟨(added_filled disk home nonce tables).next, (added_filled disk home nonce tables).records⟩

/-- The directory of an artifact, or of one that is to come, is where it was when it is made. -/
theorem Keeps.prepare_cases (keeps : store.Keeps kind disk) :
    Grown disk (store.prepare disk).2 ∧ ((store.prepare disk).1 = .ok () →
      ∃ home entries, (store.prepare disk).2.Home store.directory home entries) := by
  cases keeps with
  | vacant empty =>
      have spares := Disk.makeDirs_spares empty.hasCurrent store.directory
      rw [← prepare_disk] at spares
      refine ⟨⟨spares.next, spares.records⟩, fun ready => ?_⟩
      obtain ⟨_, home, entries, at_, _⟩ := empty.bare_home (prepare_eq ready)
      exact ⟨home, entries, at_⟩
  | holds installed good =>
      rw [prepare_of_home installed.at_]
      exact ⟨⟨Nat.le_refl _, fun _ _ => rfl⟩, fun _ => ⟨_, _, installed.at_⟩⟩

/-- A save writes into no file that was there. -/
theorem Keeps.save_grown (keeps : store.Keeps kind disk) {details : Details}
    (fresh : store.Fresh disk details.nonce) (index : Index) (skipped : List SkippedFile) :
    Grown disk (store.save disk index skipped details).2 := by
  obtain ⟨grown, ready⟩ := keeps.prepare_cases
  cases prepared : store.prepare disk with
  | mk outcome made =>
      rw [prepared] at grown ready
      rw [Fresh, prepared] at fresh
      cases outcome with
      | error fault =>
          rw [Store.save, Store.within, prepared]
          exact grown
      | ok _ =>
          obtain ⟨home, entries, at_⟩ := ready rfl
          rw [Store.save, Store.within, prepared]
          rcases install_outcome at_ (fresh home entries at_) index skipped with
            ⟨fault, after, failed, kept⟩ | ⟨tables, after, wrote, written⟩
          · simp only [failed]
            exact grown.trans ⟨kept.next, kept.records⟩
          · simp only [wrote, written.left]
            exact grown.trans (grown_saved made home details.nonce tables)

end Store

namespace Service

/-- The file table of an artifact is at hand, and its token rows are where they were. -/
def Opened.Grounds (store : Store) (contents : List Bytes) (disk : Disk) (opened : Opened) : Prop :=
  opened.serial < disk.next ∧ ∃ tables, disk.body opened.serial = .artifact tables ∧
    Grounded contents tables ∧ Stored.load store.path (.tables tables) = .ok opened.stored

/-- What came of a source is what comes of it where there is no previous index. -/
def Restores (source : SourceFile) (outcome : Build.Outcome) : Prop :=
  outcome.forget = Build.scratch source

def Stage.Grounds (store : Store) (contents : List Bytes) (sources : List SourceFile) (disk : Disk) :
    Stage → Prop
  | .lexing previous _ tasks => (∀ opened, previous = some opened →
        opened.Grounds store contents disk) ∧
      ∃ ordered, Build.order sources = .ok ordered ∧
        List.Forall₂ (Task.Meets Restores) tasks ordered
  | _ => True

variable {ι : Type} [DecidableEq ι] {store : Store} {party : ι → Party} {contents : List Bytes}
  {s t : State ι}

structure State.Grounds (store : Store) (party : ι → Party) (contents : List Bytes) (s : State ι) :
    Prop where
  keeps : store.Keeps (Grounded contents) s.disk
  stages : ∀ i, (s.stage i).Grounds store contents (party i).readings.sources s.disk

/-- A worker takes tokens for a source that are not the tokens of the source, and takes them from
another file than that of the file table. -/
def State.Mixes (store : Store) (s : State ι) : Action ι → Prop
  | .lex i place worker => ∃ opened links tasks source tokens,
      s.stage i = .lexing (some opened) links tasks ∧ tasks[place]? = some (.due source) ∧
      linkOf store s.disk links worker ≠ .ok opened.serial ∧
      Build.reuse (some (opened.reader s.disk (linkOf store s.disk links worker))) source.path
        (.ofContent source.content source.modified) = .ok (.found tokens) ∧
      Lexer.tokenize source.content ≠ .ok tokens
  | _ => False

/-- The name of a draft is free when it is taken. -/
def State.Free (store : Store) (party : ι → Party) (s : State ι) : Action ι → Prop
  | .save i => store.Fresh s.disk (party i).details.nonce
  | _ => True

theorem Opened.Grounds.grown {disk after : Disk} {opened : Opened}
    (grounds : opened.Grounds store contents disk) (grown : Store.Grown disk after) :
    opened.Grounds store contents after := by
  obtain ⟨old, tables, held, rest⟩ := grounds
  exact ⟨Nat.lt_of_lt_of_le old grown.next, tables, (grown.body_eq old).trans held, rest⟩

theorem Stage.Grounds.grown {disk after : Disk} {sources : List SourceFile} {stage : Stage}
    (grounds : stage.Grounds store contents sources disk) (grown : Store.Grown disk after) :
    stage.Grounds store contents sources after := by
  cases stage with
  | lexing previous links tasks =>
      exact ⟨fun opened held => (grounds.1 opened held).grown grown, grounds.2⟩
  | waiting | ended => trivial

theorem Opened.grounds_of_find {disk : Disk} (keeps : store.Keeps (Grounded contents) disk)
    {previous : Option Opened} (found : Opened.find store disk = .ok previous) :
    ∀ opened, previous = some opened → opened.Grounds store contents disk := by
  rintro opened rfl
  rcases Opened.find_cases found with none_ | ⟨other, same, loaded, connected⟩
  · cases none_
  · cases same
    cases keeps with
    | vacant empty => exact absurd loaded (empty.load_ne _)
    | @holds home entries serial tables installed good =>
        rw [installed.connect_eq] at connected
        cases connected
        exact ⟨installed.old, tables, installed.body, good, installed.load_eq ▸ loaded⟩

theorem grounds_start {disk : Disk} (keeps : store.Keeps (Grounded contents) disk) (party : Party) :
    (State.settle (State.begun store party disk)).Grounds store contents party.readings.sources
      disk := by
  cases begins : State.begun store party disk with
  | error fault => trivial
  | ok stage =>
      obtain ⟨previous, found, begins⟩ := bind_eq_ok.mp begins
      obtain ⟨ordered, sorted, begins⟩ := bind_eq_ok.mp begins
      cases begins
      exact ⟨Opened.grounds_of_find keeps found, ordered, sorted, meets_due ordered⟩

theorem Opened.Grounds.honest (apart : Apart contents) {disk : Disk} {opened : Opened}
    (grounds : opened.Grounds store contents disk) {source : SourceFile}
    (known : source.content ∈ contents) :
    Build.Honest (some (opened.reader disk (.ok opened.serial))) source := by
  obtain ⟨_, tables, held, good, loaded⟩ := grounds
  have reader : opened.reader disk (.ok opened.serial) =
      opened.stored.reader (.ok (.tables tables)) := by
    change opened.stored.reader (Store.contentOf disk opened.stored.path opened.serial) = _
    rw [Store.contentOf, held]
    rfl
  rw [reader]
  refine Build.honest_of_faithful ?_ known
  rintro _ ⟨⟩
  exact good.faithful apart loaded

omit [DecidableEq ι] in
theorem grounds_lex (apart : Apart contents) {i : ι} {place worker : Nat}
    (known : ∀ source ∈ (party i).readings.sources, source.content ∈ contents)
    {previous : Option Opened} {links : Nat → Option Nat} {tasks : List Task} {source : SourceFile}
    (there : s.stage i = .lexing previous links tasks) (due : tasks[place]? = some (.due source))
    (grounds : (s.stage i).Grounds store contents (party i).readings.sources s.disk)
    (unmixed : ¬ s.Mixes store (.lex i place worker)) :
    (State.settle (State.lexed previous links tasks s.disk (linkOf store s.disk links worker) place
      worker source)).Grounds store contents (party i).readings.sources s.disk := by
  rw [there] at grounds
  obtain ⟨opens, ordered, sorted, meets⟩ := grounds
  have honest : Build.Honest
      (previous.map (fun opened => opened.reader s.disk (linkOf store s.disk links worker)))
      source := by
    obtain ⟨given, inside, path⟩ := Build.mem_order sorted (source_of_due meets due)
    have content : source.content ∈ contents := by
      rw [path]
      exact known given inside
    cases previous with
    | none => exact Build.honest_of_faithful (by simp) content
    | some opened =>
        -- Only rows of another file can be wrong, and taking those is what mixes.
        by_cases own : linkOf store s.disk links worker = .ok opened.serial
        · rw [own]
          exact (opens opened rfl).honest apart content
        · intro tokens reused
          by_contra differs
          exact unmixed ⟨opened, links, tasks, source, tokens, there, due, own, reused, differs⟩
  cases looks : State.lexed previous links tasks s.disk (linkOf store s.disk links worker) place
      worker source with
  | error fault => trivial
  | ok stage =>
      obtain ⟨outcome, looked, looks⟩ := bind_eq_ok.mp looks
      cases looks
      exact ⟨opens, ordered, sorted, meets_set meets due (Build.forget_outcome honest looked)⟩

theorem forget_of_restores {ordered : List SourceFile} {outcomes : List Build.Outcome}
    (each : List.Forall₂ Restores ordered outcomes) :
    outcomes.map Build.Outcome.forget = ordered.map Build.scratch := by
  induction each with
  | nil => rfl
  | cons first _ ih => rw [List.map_cons, List.map_cons, first, ih]

/-- A save fails and leaves the artifact that was there, or it installs what a build of the same sources
installs that has no previous index. -/
theorem State.Grounds.save_cases {i : ι} (grounds : s.Grounds store party contents)
    (known : ∀ source ∈ (party i).readings.sources, source.content ∈ contents)
    (fresh : store.Fresh s.disk (party i).details.nonce)
    (stepped : s.step store party (.save i) = some t) :
    Store.Grown s.disk t.disk ∧ store.Keeps (Grounded contents) t.disk ∧
      ((∃ fault, t.stage i = .ended (.error fault)) ∨
        ∃ scratch tables, buildIndex none (party i).readings.sources = .ok scratch ∧
          Artifact.encode (store.draft (party i).details.nonce) scratch.index
            (byPath ((party i).readings.skipped ++ scratch.skipped)) (party i).details.root
            (party i).details.created = .ok tables ∧
          Store.contentAt t.disk store.path = .ok (.tables tables)) := by
  obtain ⟨previous, links, tasks, outcomes, outcome, left, there, whole, saved, rfl⟩ :=
    State.save_cases stepped
  have stage := grounds.stages i
  rw [there] at stage
  obtain ⟨_, ordered, sorted, meets⟩ := stage
  obtain ⟨index, skipped⟩ := Build.resultOf_forget (forget_of_restores (outcomes_of_meets meets whole))
  have knownOrdered : ∀ source ∈ ordered, source.content ∈ contents := by
    intro source member
    obtain ⟨given, inside, rfl⟩ := Build.mem_order sorted member
    exact known given inside
  have grown := grounds.keeps.save_grown fresh (Build.resultOf outcomes).index
    (byPath ((party i).readings.skipped ++ (Build.resultOf outcomes).skipped))
  rw [saved] at grown
  refine ⟨grown, ?_⟩
  rw [State.put_disk, State.put_stage_self]
  rcases grounds.keeps.save fresh (Build.resultOf outcomes).index
      (byPath ((party i).readings.skipped ++ (Build.resultOf outcomes).skipped)) with
    ⟨fault, after, failed, keeps⟩ | ⟨tables, after, home, entries, serial, wrote, encoded, installed⟩
  · cases saved.symm.trans failed
    exact ⟨keeps, .inl ⟨fault, rfl⟩⟩
  · cases saved.symm.trans wrote
    rw [← index, ← skipped] at encoded
    refine ⟨?_, .inr ⟨_, tables, buildIndex_none sorted, encoded, installed.contentAt_eq⟩⟩
    obtain ⟨kept, rows, _, _, rfl, _⟩ := tables_of_encode encoded
    exact .holds installed (grounded_tablesOf (Build.lexed_scratch knownOrdered) rows kept _)

/-- Each step leaves all artifacts that were opened, and the one that is there, as a build from scratch
makes them. -/
theorem State.Grounds.step (apart : Apart contents)
    (known : ∀ i, ∀ source ∈ (party i).readings.sources, source.content ∈ contents)
    (grounds : s.Grounds store party contents) {action : Action ι} (free : s.Free store party action)
    (unmixed : ¬ s.Mixes store action) (stepped : s.step store party action = some t) :
    t.Grounds store party contents := by
  -- The other builds notice a step by the disk alone, and no file that they opened changes.
  have stages {i : ι} {stage : Stage} {disk : Disk} (grown : Store.Grown s.disk disk)
      (own : stage.Grounds store contents (party i).readings.sources disk) (j : ι) :
      ((State.put { s with disk } i stage).stage j).Grounds store contents
        (party j).readings.sources disk := by
    by_cases same : j = i
    · subst same
      rw [State.put_stage_self]
      exact own
    · rw [State.put_stage_ne same]
      exact (grounds.stages j).grown grown
  have still : Store.Grown s.disk s.disk := ⟨Nat.le_refl _, fun _ _ => rfl⟩
  cases action with
  | start i =>
      obtain ⟨_, rfl⟩ := State.start_cases stepped
      exact ⟨grounds.keeps, stages still (grounds_start grounds.keeps (party i))⟩
  | lex i place worker =>
      obtain ⟨previous, links, tasks, source, there, due, rfl⟩ := State.lex_cases stepped
      have lexes := grounds_lex apart (known i) there due (grounds.stages i) unmixed
      exact ⟨grounds.keeps, stages still lexes⟩
  | save i =>
      obtain ⟨grown, keeps, _⟩ := grounds.save_cases (known i) free stepped
      obtain ⟨_, _, _, _, outcome, disk, _, _, _, rfl⟩ := State.save_cases stepped
      exact ⟨keeps, stages grown trivial⟩

theorem grounds_of_reaches (apart : Apart contents)
    (known : ∀ i, ∀ source ∈ (party i).readings.sources, source.content ∈ contents) {disk : Disk}
    (keeps : store.Keeps (Grounded contents) disk)
    (reached : Reaches store party
      (fun s action => s.Free store party action ∧ ¬ s.Mixes store action) (.idle disk) s) :
    s.Grounds store party contents := by
  induction reached with
  | start => exact ⟨keeps, fun _ => trivial⟩
  | step _ permitted stepped ih => exact ih.step apart known permitted.1 permitted.2 stepped

/-- Builds that take their steps side by side, in any order, each install what a build of their own
sources installs that has no previous index, as long as no worker takes wrong tokens from another
artifact than that whose file table its build has loaded. -/
theorem concurrent_builds_from_scratch (apart : Apart contents) {vacancy disk : Disk}
    (vacant : store.Vacant vacancy) (history : History store contents vacancy disk)
    (known : ∀ i, ∀ source ∈ (party i).readings.sources, source.content ∈ contents)
    (reached : Reaches store party
      (fun s action => s.Free store party action ∧ ¬ s.Mixes store action) (.idle disk) s)
    {i : ι} (fresh : store.Fresh s.disk (party i).details.nonce)
    (stepped : s.step store party (.save i) = some t) {path : Path}
    (installed : t.stage i = .ended (.ok path)) :
    ∃ scratch tables, buildIndex none (party i).readings.sources = .ok scratch ∧
      Artifact.encode (store.draft (party i).details.nonce) scratch.index
        (byPath ((party i).readings.skipped ++ scratch.skipped)) (party i).details.root
        (party i).details.created = .ok tables ∧
      Store.contentAt t.disk store.path = .ok (.tables tables) := by
  have grounds := grounds_of_reaches apart known (history.keeps apart vacant) reached
  obtain ⟨_, _, ⟨fault, failed⟩ | same⟩ := grounds.save_cases (known i) fresh stepped
  · cases installed.symm.trans failed
  · exact same

/-- Two tokens of one place. A build of the second source finds the word of the first one changed. -/
def otherSource : SourceFile := ⟨"a.c", [121, 32], none⟩

def otherToken : Token := { wordAt 0 with text := "y" }

def otherFile : IndexedFile := ⟨0, "a.c", .ofContent [121, 32] none, [otherToken], [121, 32]⟩

def otherBuild : BuildResult := ⟨⟨[otherFile], .ofFiles [otherFile]⟩, 0, []⟩

theorem otherBuild_storable : Storable otherBuild.index [] where
  dense := Index.dense_singleton rfl
  paths := by decide
  fileNumbers := by decide
  tokenNumbers := by decide
  words := by simp only [Blob.IsWord]; decide
  fileCount := by decide
  tokenCount := by decide
  postingKeys := by decide
  skippedPaths := by decide
  skippedNumbers := by decide

def otherTables : Tables := tablesOf otherBuild.index [] "/" ""

def partySource : Bool → SourceFile
  | false => wordSource
  | true => otherSource

/-- One build has the word, the other one has another word under the same path. -/
def twoParties (i : Bool) : Party :=
  ⟨⟨[partySource i], []⟩, ⟨.ofString "/", "", if i then "1" else "0"⟩⟩

/-- An artifact has made way for another one, and its file is still held. -/
def replaced (earlier next : Tables) : Disk :=
  ⟨.cons (.ofString Store.fileName) (.file 1) .nil, [],
    [(0, ⟨.artifact earlier, 0⟩), (1, ⟨.artifact next, 0⟩)], 2, default⟩

theorem shelved_free (tables : Tables) : bare.Writable (shelved tables) "1" (shelved tables) []
    (.cons (.ofString Store.fileName) (.file 0) .nil) :=
  Store.bare_writable_of ⟨by decide, by decide, by decide⟩ ⟨by decide, by decide⟩ (.file 0) rfl

theorem replaced_writable (earlier next : Tables) : bare.Writable (replaced earlier next) "0"
    (replaced earlier next) [] (.cons (.ofString Store.fileName) (.file 1) .nil) :=
  Store.bare_writable (.file 1) rfl

theorem replaced_installed {earlier next : Tables} : bare.Installed (replaced earlier next) []
    (.cons (.ofString Store.fileName) (.file 1) .nil) 1 next :=
  Store.bare_installed rfl Nat.one_lt_two rfl

theorem saved_shelved (earlier next : Tables) :
    Store.saved (shelved earlier) [] "1" next = replaced earlier next := rfl

def wordOpened : Opened := ⟨0, storedOf wordBuild.index "/" "" bare.path⟩

def State.pair (disk : Disk) (first second : Stage) : State Bool :=
  ⟨disk, fun i => if i then second else first⟩

theorem State.pair_put_false (disk : Disk) (first second next : Stage) :
    (State.pair disk first second).put false next = .pair disk next second := by
  rw [State.put, State.pair, State.pair, State.mk.injEq]
  exact ⟨rfl, funext fun i => by cases i <;> rfl⟩

theorem State.pair_put_true (disk : Disk) (first second next : Stage) :
    (State.pair disk first second).put true next = .pair disk first next := by
  rw [State.put, State.pair, State.pair, State.mk.injEq]
  exact ⟨rfl, funext fun i => by cases i <;> rfl⟩

/-- A build has opened the artifact of the word, and has looked at nothing else. -/
def dueStage (i : Bool) : Stage := .lexing (some wordOpened) (fun _ => none) [.due (partySource i)]

theorem begun_twoParties (i : Bool) :
    State.begun bare (twoParties i) (shelved wordTables) = .ok (dueStage i) := by
  have loaded : bare.load (shelved wordTables) = .ok wordOpened.stored := by
    rw [(shelved_installed wordTables).load_eq]
    exact wordBuild_storable.countable.load wordBuild_storable.dense rfl rfl rfl bare.path
  have found : Opened.find bare (shelved wordTables) = .ok (some wordOpened) := by
    simp only [Opened.find, loaded, (shelved_installed wordTables).connect_eq]
    rfl
  have sorted : Build.order (twoParties i).readings.sources = .ok [partySource i] := by
    cases i <;> cbv
  rw [State.begun, found, ok_bind, sorted]
  rfl

theorem reaches_due (permits : State Bool → Action Bool → Prop)
    (starts : ∀ s i, permits s (.start i)) :
    Reaches bare twoParties permits (.idle (shelved wordTables))
      (.pair (shelved wordTables) (dueStage false) (dueStage true)) := by
  have first : (State.idle (shelved wordTables)).step bare twoParties (.start false) =
      some (.pair (shelved wordTables) (dueStage false) .waiting) := by
    have idle : (State.idle (shelved wordTables) : State Bool) =
        .pair (shelved wordTables) .waiting .waiting := by
      rw [State.idle, State.pair, State.mk.injEq]
      exact ⟨rfl, funext fun i => by cases i <;> rfl⟩
    rw [idle, State.step_start rfl, State.pair_put_false]
    exact congrArg (fun stage => some (State.pair _ (State.settle stage) _)) (begun_twoParties false)
  have second : (State.pair (shelved wordTables) (dueStage false) .waiting).step bare twoParties
      (.start true) = some (.pair (shelved wordTables) (dueStage false) (dueStage true)) := by
    rw [State.step_start rfl, State.pair_put_true]
    exact congrArg (fun stage => some (State.pair _ _ (State.settle stage))) (begun_twoParties true)
  exact .step (.step .start (starts _ _) first) (starts _ _) second

theorem entryOf?_wordOpened (disk : Disk) (link : Except Fault Nat) :
    Build.entryOf? (wordOpened.reader disk link) "a.c" = some wordFile.entry := rfl

def outcomeWith (i : Bool) (kind : Build.Reuse) (token : Token) : Build.Outcome :=
  ⟨partySource i, .ofContent (partySource i).content none, kind, .ok [token]⟩

theorem outcome_other (disk : Disk) (link : Except Fault Nat) :
    Build.outcome (some (wordOpened.reader disk link)) otherSource =
      .ok (outcomeWith true .absent otherToken) := by
  have differs : wordFile.entry.isEquivalent (.ofContent [121, 32] none) = false :=
    Bool.and_eq_false_iff.mpr (.inl (Cell.agrees_integer 1 2))
  have absent : Build.reuse (some (wordOpened.reader disk link)) "a.c" (.ofContent [121, 32] none) =
      .ok .absent := by
    simp only [Build.reuse, entryOf?_wordOpened, differs]
    rfl
  have lexed : Lexer.tokenize [121, 32] = .ok [otherToken] :=
    Lexer.tokenize_eq_ok.mpr ⟨['y', ' '], rfl, by cbv⟩
  rw [Build.outcome, otherSource, absent, ok_bind]
  simp only [lexed]
  rfl

/-- The one token that a file of an artifact has under the first number is taken for the word. -/
theorem reuse_word {disk : Disk} {serial : Nat} {tables : Tables} {file : IndexedFile}
    (held : disk.body serial = .artifact tables) (rows : tables.tokens = some (tokenRowsOf [file]))
    (dense : Index.Dense [file]) {token : Token} (one : file.tokens = [token]) :
    Build.reuse (some (wordOpened.reader disk (.ok serial))) "a.c" (.ofContent [120] none) =
      .ok (.found [token]) := by
  have reader : wordOpened.reader disk (.ok serial) =
      wordOpened.stored.reader (.ok (.tables tables)) := by
    change wordOpened.stored.reader (Store.contentOf disk wordOpened.stored.path serial) = _
    rw [Store.contentOf, held]
    rfl
  have same : wordFile.entry.isEquivalent (.ofContent [120] none) = true := by
    simp [FileEntry.isEquivalent, IndexedFile.entry, wordFile]
  have read := @window_tokens wordOpened.stored [file] dense 0 file rfl 0 1
  rw [one] at read
  have listed := entryOf?_wordOpened disk (.ok serial)
  rw [reader] at listed ⊢
  rw [Build.reuse_of_complete listed same ((window_reader _ rows _ _ _).trans read) rfl]
  rfl

theorem outcome_word {disk : Disk} {serial : Nat} {tables : Tables} {file : IndexedFile}
    (held : disk.body serial = .artifact tables) (rows : tables.tokens = some (tokenRowsOf [file]))
    (dense : Index.Dense [file]) {token : Token} (one : file.tokens = [token]) :
    Build.outcome (some (wordOpened.reader disk (.ok serial))) wordSource =
      .ok (outcomeWith false (.found [token]) token) := by
  rw [Build.outcome, wordSource, reuse_word held rows dense one]
  rfl

/-- A build has its token, and has yet to save it. -/
def lexedStage (i : Bool) (links : Nat → Option Nat) (kind : Build.Reuse) (token : Token) : Stage :=
  .lexing (some wordOpened) links [.lexed (outcomeWith i kind token)]

theorem step_lex_due {s : State Bool} {i : Bool} {kind : Build.Reuse} {token : Token}
    {link : Except Fault Nat} (there : s.stage i = dueStage i)
    (linked : Store.connect s.disk bare.path = link)
    (looked : Build.outcome (some (wordOpened.reader s.disk link)) (partySource i) =
      .ok (outcomeWith i kind token)) :
    ∃ links, s.step bare twoParties (.lex i 0 0) =
      some (s.put i (lexedStage i links kind token)) := by
  rw [State.step_lex there rfl, linkOf, linked, State.lexed, Option.map_some, looked]
  exact ⟨_, rfl⟩

theorem step_save_lexed {s : State Bool} {i : Bool} {links : Nat → Option Nat} {kind : Build.Reuse}
    {token : Token} (result : BuildResult) {home : List Text.RawText} {entries : Disk.Entries}
    (there : s.stage i = lexedStage i links kind token)
    (whole : Build.resultOf [outcomeWith i kind token] = result) (none_ : result.skipped = [])
    (storable : Storable result.index [])
    (writable : bare.Writable s.disk (twoParties i).details.nonce s.disk home entries) :
    s.step bare twoParties (.save i) = some (State.put ⟨Store.saved s.disk home
      (twoParties i).details.nonce (tablesOf result.index [] "/" ""), s.stage⟩ i
        (.ended (.ok bare.path))) ∧
    Store.contentAt (Store.saved s.disk home (twoParties i).details.nonce
      (tablesOf result.index [] "/" "")) bare.path =
        .ok (.tables (tablesOf result.index [] "/" "")) := by
  have encoded : Artifact.encode (bare.draft (twoParties i).details.nonce) result.index
      (byPath ((twoParties i).readings.skipped ++ result.skipped)) (twoParties i).details.root
      (twoParties i).details.created = .ok (tablesOf result.index [] "/" "") := by
    rw [none_]
    exact encode_unskipped storable (wordCall_rooted bareDisk) _ _
  obtain ⟨wrote, installed⟩ := writable.save_eq encoded
  rw [← whole] at wrote
  refine ⟨?_, installed.contentAt_eq⟩
  rw [State.step_save there rfl wrote, whole]

/-- The second build takes its remaining steps, and its artifact takes the place of the word. -/
theorem reaches_replaced {permits : State Bool → Action Bool → Prop} {first : Stage}
    (lexes : permits (.pair (shelved wordTables) first (dueStage true)) (.lex true 0 0))
    (saves : ∀ last, permits (.pair (shelved wordTables) first last) (.save true))
    (reached : Reaches bare twoParties permits (.idle (shelved wordTables))
      (.pair (shelved wordTables) first (dueStage true))) :
    ∃ last, Reaches bare twoParties permits (.idle (shelved wordTables))
      (.pair (replaced wordTables otherTables) first last) := by
  obtain ⟨links, lexed⟩ := step_lex_due (i := true)
    (s := .pair (shelved wordTables) first (dueStage true)) rfl
    (shelved_installed wordTables).connect_eq (outcome_other _ _)
  rw [State.pair_put_true] at lexed
  obtain ⟨saved, _⟩ := step_save_lexed (i := true) otherBuild
    (s := .pair (shelved wordTables) first (lexedStage true links .absent otherToken)) rfl
    (Build.resultOf_eq _) rfl otherBuild_storable (shelved_free wordTables)
  have left : State.put ⟨Store.saved (shelved wordTables) [] "1" otherTables,
        (State.pair (shelved wordTables) first (lexedStage true links .absent otherToken)).stage⟩
        true (.ended (.ok bare.path)) =
      .pair (replaced wordTables otherTables) first (.ended (.ok bare.path)) := by
    rw [saved_shelved]
    exact State.pair_put_true ..
  exact ⟨_, .step (.step reached lexes lexed) (saves _) (saved.trans (congrArg some left))⟩

theorem apart_parties : Apart [[120], [121, 32]] := by
  intro a first b second same
  have size : (a.length : Int) = b.length := congrArg Fingerprint.size same
  simp only [List.mem_cons, List.not_mem_nil, or_false] at first second
  rcases first with rfl | rfl <;> rcases second with rfl | rfl
  · rfl
  · exact absurd size (by decide)
  · exact absurd size (by decide)
  · rfl

theorem known_parties (i : Bool) :
    ∀ source ∈ (twoParties i).readings.sources, source.content ∈ [[120], [121, 32]] := by
  intro source member
  cases List.mem_singleton.mp member
  cases i <;> decide

theorem unmixed_due {s : State Bool} {i : Bool} (there : s.stage i = dueStage i)
    (disk : s.disk = shelved wordTables) : ¬ s.Mixes bare (.lex i 0 0) := by
  rintro ⟨opened, links, tasks, source, tokens, same, _, other, _⟩
  cases there.symm.trans same
  rw [disk] at other
  exact other (shelved_installed wordTables).connect_eq

/-- Both builds have opened the artifact of the word and have taken their rows from it. -/
theorem twoParties_from_scratch :
    ∃ s t, Reaches bare twoParties
        (fun s action => s.Free bare twoParties action ∧ ¬ s.Mixes bare action)
        (.idle (shelved wordTables)) s ∧
      Store.contentAt s.disk bare.path = .ok (.tables otherTables) ∧
      s.step bare twoParties (.save false) = some t ∧
      Store.contentAt t.disk bare.path = .ok (.tables wordTables) := by
  obtain ⟨links, lexed⟩ := step_lex_due (i := false)
    (s := .pair (shelved wordTables) (dueStage false) (dueStage true)) rfl
    (shelved_installed wordTables).connect_eq
    (outcome_word (shelved_installed wordTables).body rfl wordBuild_storable.dense rfl)
  rw [State.pair_put_false] at lexed
  have begun := reaches_due (fun s action =>
    s.Free bare twoParties action ∧ ¬ s.Mixes bare action) fun _ _ => ⟨trivial, not_false⟩
  obtain ⟨last, reached⟩ := reaches_replaced ⟨trivial, unmixed_due rfl rfl⟩
    (fun _ => ⟨(shelved_free wordTables).isFresh, not_false⟩)
    (.step begun (by exact ⟨trivial, unmixed_due rfl rfl⟩) lexed)
  obtain ⟨stepped, _⟩ := step_save_lexed (i := false) ⟨wordBuild.index, 1, []⟩
    (s := .pair (replaced wordTables otherTables)
      (lexedStage false links (.found [wordAt 0]) (wordAt 0)) last) rfl
    (Build.resultOf_eq _) rfl wordBuild_storable (replaced_writable wordTables otherTables)
  have vacant : bare.Vacant bareDisk :=
    .of_home (Disk.Entries.isDir_nil _) Store.bareDisk_writable.at_ rfl
  have fresh : bare.Fresh (replaced wordTables otherTables) (twoParties false).details.nonce :=
    (replaced_writable wordTables otherTables).isFresh
  obtain ⟨scratch, tables, built, encoded, content⟩ := concurrent_builds_from_scratch apart_parties
    vacant (shelved_history (by decide)) known_parties reached fresh stepped
    (State.put_stage_self ..)
  cases (buildIndex_wordSource rfl (.inl rfl)).symm.trans built
  cases (wordCall_encode bareDisk).symm.trans encoded
  exact ⟨_, _, reached, replaced_installed.contentAt_eq, stepped, content⟩

/-- The first build has opened the artifact of the word, and takes the rows of the other one. -/
theorem mixed_rows_installed :
    ∃ s t path scratch tables, Apart [[120], [121, 32]] ∧
      History bare [[120], [121, 32]] bareDisk (shelved wordTables) ∧
      Reaches bare twoParties (State.Free bare twoParties) (.idle (shelved wordTables)) s ∧
      bare.Fresh s.disk (twoParties false).details.nonce ∧
      s.step bare twoParties (.save false) = some t ∧ t.stage false = .ended (.ok path) ∧
      buildIndex none (twoParties false).readings.sources = .ok scratch ∧
      Artifact.encode (bare.draft (twoParties false).details.nonce) scratch.index
        (byPath ((twoParties false).readings.skipped ++ scratch.skipped))
        (twoParties false).details.root (twoParties false).details.created = .ok tables ∧
      Store.contentAt t.disk bare.path ≠ .ok (.tables tables) := by
  -- Both artifacts have one file with one token, so nothing tells their rows apart.
  have begun := reaches_due (State.Free bare twoParties) fun _ _ => trivial
  obtain ⟨last, reached⟩ := reaches_replaced trivial
    (fun _ => (shelved_free wordTables).isFresh) begun
  obtain ⟨links, lexed⟩ := step_lex_due (i := false)
    (s := .pair (replaced wordTables otherTables) (dueStage false) last) rfl
    replaced_installed.connect_eq
    (outcome_word replaced_installed.body rfl otherBuild_storable.dense rfl)
  rw [State.pair_put_false] at lexed
  obtain ⟨stepped, content⟩ := step_save_lexed (i := false) forgedBuild
    (s := .pair (replaced wordTables otherTables)
      (lexedStage false links (.found [otherToken]) otherToken) last) rfl
    (Build.resultOf_eq _) rfl forgedBuild_storable (replaced_writable wordTables otherTables)
  refine ⟨_, _, _, _, wordTables, apart_parties, shelved_history (by decide),
    .step reached (by trivial) lexed, (replaced_writable wordTables otherTables).isFresh,
    stepped, State.put_stage_self .., buildIndex_wordSource rfl (.inl rfl), wordCall_encode bareDisk, ?_⟩
  intro same
  have tokens : forgedTables.tokens = wordTables.tokens := by
    rw [forgedTables, Content.tables.inj (Except.ok.inj (content.symm.trans same))]
  exact absurd tokens (by decide)

end Service

end TokenSearch
