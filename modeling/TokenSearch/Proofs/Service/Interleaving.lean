import Mathlib.Logic.Function.Basic
import TokenSearch.Proofs.Service.Rebuild

namespace TokenSearch.Service

/-! Builds of one index that take their steps side by side. Each opens the artifact that it finds and
keeps the file table. Its workers read the token rows later, each from the artifact that is there when
it needs one for the first time. A save then replaces the artifact in one step. -/

open Data Artifact

/-- What a build has read, and what it tells beside its index. -/
structure Party where
  readings : Discovery.Readings
  details : Store.Details

/-- An artifact that was opened: the number of its file, and what was loaded from it. -/
structure Opened where
  serial : Nat
  stored : Stored

/-- A source that waits for its tokens, or what came of it. -/
inductive Task where
  | due (source : SourceFile)
  | lexed (outcome : Build.Outcome)

/-- How far a build has come. Each worker has its own link to the file of an artifact, once it has
needed one. -/
inductive Stage where
  | waiting
  | lexing (previous : Option Opened) (links : Nat → Option Nat) (tasks : List Task)
  | ended (outcome : Except Fault Path)

structure State (ι : Type) where
  disk : Disk
  stage : ι → Stage

inductive Action (ι : Type) where
  | start (party : ι)
  | lex (party : ι) (place worker : Nat)
  | save (party : ι)

/-- The build that takes the step. -/
def Action.actor {ι : Type} : Action ι → ι
  | .start i | .lex i _ _ | .save i => i

def Task.outcome? : Task → Option Build.Outcome
  | .due _ => none
  | .lexed outcome => some outcome

/-- The artifact that is there, if it is usable. -/
def Opened.find (store : Store) (disk : Disk) : Except Fault (Option Opened) :=
  match store.load disk with
  | .ok stored => do return some ⟨← Store.connect disk store.path, stored⟩
  | .error (.indexMissing _) | .error (.indexCorrupt _ _) => .ok none
  | .error fault => .error fault

/-- The previous index as a worker reads it that is connected to a file of its own. -/
def Opened.reader (opened : Opened) (disk : Disk) (link : Except Fault Nat) : Reader :=
  opened.stored.reader (link.bind (Store.contentOf disk opened.stored.path))

/-- Whether token rows are asked for. -/
def asks (previous : Option Reader) (source : SourceFile) : Bool :=
  previous.any (fun reader => (Build.entryOf? reader source.path).any (fun entry =>
    entry.isEquivalent (.ofContent source.content source.modified)))

/-- The file to which a worker is connected, or would be if it needed one now. -/
def linkOf (store : Store) (disk : Disk) (links : Nat → Option Nat) (worker : Nat) :
    Except Fault Nat :=
  match links worker with
  | some serial => .ok serial
  | none => Store.connect disk store.path

/-- A worker that asked for rows stays connected. -/
def relink (links : Nat → Option Nat) (worker : Nat) (asked : Bool) :
    Except Fault Nat → Nat → Option Nat
  | .ok serial => if asked then Function.update links worker (some serial) else links
  | .error _ => links

namespace State

variable {ι : Type} [DecidableEq ι]

def put (s : State ι) (party : ι) (stage : Stage) : State ι :=
  { s with stage := Function.update s.stage party stage }

/-- The build opens the artifact and puts its sources in order. -/
def begun (store : Store) (party : Party) (disk : Disk) : Except Fault Stage := do
  let previous ← Opened.find store disk
  let ordered ← Build.order party.readings.sources
  return .lexing previous (fun _ => none) (ordered.map .due)

/-- A worker looks at the source at a place. -/
def lexed (previous : Option Opened) (links : Nat → Option Nat) (tasks : List Task) (disk : Disk)
    (link : Except Fault Nat) (place worker : Nat) (source : SourceFile) : Except Fault Stage := do
  let reader := previous.map (fun opened => opened.reader disk link)
  let outcome ← Build.outcome reader source
  return .lexing previous (relink links worker (asks reader source) link)
    (tasks.set place (.lexed outcome))

/-- The stage to which a step leads. A fault ends the build. -/
def settle : Except Fault Stage → Stage
  | .ok stage => stage
  | .error fault => .ended (.error fault)

/-- One step of one of the builds, if that build has come so far. -/
def step (store : Store) (party : ι → Party) (s : State ι) : Action ι → Option (State ι)
  | .start i =>
      match s.stage i with
      | .waiting => some (s.put i (settle (begun store (party i) s.disk)))
      | _ => none
  | .lex i place worker =>
      match s.stage i with
      | .lexing previous links tasks =>
          match tasks[place]? with
          | some (.due source) =>
              let link := linkOf store s.disk links worker
              some (s.put i (settle (lexed previous links tasks s.disk link place worker source)))
          | _ => none
      | _ => none
  | .save i =>
      match s.stage i with
      | .lexing _ _ tasks => do
          let result := Build.resultOf (← tasks.mapM Task.outcome?)
          let readings := (party i).readings
          let (outcome, disk) := store.save s.disk result.index
            (byPath (readings.skipped ++ result.skipped)) (party i).details
          return { s with disk }.put i (.ended outcome)
      | _ => none

variable {store : Store} {party : ι → Party} {s t : State ι} {i : ι}

@[simp]
theorem put_disk (s : State ι) (i : ι) (stage : Stage) : (s.put i stage).disk = s.disk := rfl

@[simp]
theorem put_stage_self (s : State ι) (i : ι) (stage : Stage) : (s.put i stage).stage i = stage :=
  Function.update_self ..

theorem put_stage_ne {j : ι} (other : j ≠ i) (s : State ι) (stage : Stage) :
    (s.put i stage).stage j = s.stage j := Function.update_of_ne other ..

theorem step_start (waits : s.stage i = .waiting) : s.step store party (.start i) =
    some (s.put i (settle (begun store (party i) s.disk))) := by
  simp only [step, waits]

theorem step_lex {previous : Option Opened} {links : Nat → Option Nat} {tasks : List Task}
    {place : Nat} {source : SourceFile} (there : s.stage i = .lexing previous links tasks)
    (due : tasks[place]? = some (.due source)) (worker : Nat) :
    s.step store party (.lex i place worker) =
      some (s.put i (settle (lexed previous links tasks s.disk (linkOf store s.disk links worker)
        place worker source))) := by
  simp only [step, there, due]

theorem step_save {previous : Option Opened} {links : Nat → Option Nat} {tasks : List Task}
    {outcomes : List Build.Outcome} {outcome : Except Fault Path} {disk : Disk}
    (there : s.stage i = .lexing previous links tasks)
    (whole : tasks.mapM Task.outcome? = some outcomes)
    (saved : store.save s.disk (Build.resultOf outcomes).index
      (byPath ((party i).readings.skipped ++ (Build.resultOf outcomes).skipped))
      (party i).details = (outcome, disk)) :
    s.step store party (.save i) = some (State.put { s with disk } i (.ended outcome)) := by
  simp only [step, there, whole, Option.bind_eq_bind, Option.bind_some, saved]
  rfl

theorem start_cases (stepped : s.step store party (.start i) = some t) :
    s.stage i = .waiting ∧ t = s.put i (settle (begun store (party i) s.disk)) := by
  simp only [step] at stepped
  split at stepped
  · rename_i waits
    exact ⟨waits, (Option.some.inj stepped).symm⟩
  · cases stepped

theorem lex_cases {place worker : Nat} (stepped : s.step store party (.lex i place worker) = some t) :
    ∃ previous links tasks source, s.stage i = .lexing previous links tasks ∧
      tasks[place]? = some (.due source) ∧
      t = s.put i (settle (lexed previous links tasks s.disk (linkOf store s.disk links worker)
        place worker source)) := by
  simp only [step] at stepped
  split at stepped
  · rename_i previous links tasks there
    split at stepped
    · rename_i source due
      exact ⟨previous, links, tasks, source, there, due, (Option.some.inj stepped).symm⟩
    · cases stepped
  · cases stepped

theorem save_cases (stepped : s.step store party (.save i) = some t) :
    ∃ previous links tasks outcomes outcome disk, s.stage i = .lexing previous links tasks ∧
      tasks.mapM Task.outcome? = some outcomes ∧
      store.save s.disk (Build.resultOf outcomes).index
        (byPath ((party i).readings.skipped ++ (Build.resultOf outcomes).skipped))
        (party i).details = (outcome, disk) ∧
      t = State.put { s with disk } i (.ended outcome) := by
  simp only [step] at stepped
  split at stepped
  · rename_i previous links tasks there
    obtain ⟨outcomes, whole, stepped⟩ := Option.bind_eq_some_iff.mp stepped
    exact ⟨previous, links, tasks, outcomes, _, _, there, whole, rfl, (Option.some.inj stepped).symm⟩
  · cases stepped

end State

/-- The states to which steps lead, if only some of them are taken. -/
inductive Reaches {ι : Type} [DecidableEq ι] (store : Store) (party : ι → Party)
    (permits : State ι → Action ι → Prop) (start : State ι) : State ι → Prop
  | start : Reaches store party permits start start
  | step {s t : State ι} {action : Action ι} (earlier : Reaches store party permits start s)
      (permitted : permits s action) (stepped : s.step store party action = some t) :
      Reaches store party permits start t

/-- All builds wait, and there is this disk. -/
def State.idle {ι : Type} (disk : Disk) : State ι := ⟨disk, fun _ => .waiting⟩

/-- A task is about a source; what came of it is good. -/
inductive Task.Meets (good : SourceFile → Build.Outcome → Prop) : Task → SourceFile → Prop
  | due (source : SourceFile) : Task.Meets good (.due source) source
  | lexed {source : SourceFile} {outcome : Build.Outcome} (settled : good source outcome) :
      Task.Meets good (.lexed outcome) source

section Tasks

variable {good : SourceFile → Build.Outcome → Prop} {tasks : List Task} {ordered : List SourceFile}

theorem meets_due (ordered : List SourceFile) :
    List.Forall₂ (Task.Meets good) (ordered.map .due) ordered := by
  induction ordered with
  | nil => exact .nil
  | cons source rest ih => exact .cons (.due source) ih

theorem meets_set (meets : List.Forall₂ (Task.Meets good) tasks ordered) {place : Nat}
    {source : SourceFile} (due : tasks[place]? = some (.due source)) {outcome : Build.Outcome}
    (settled : good source outcome) :
    List.Forall₂ (Task.Meets good) (tasks.set place (.lexed outcome)) ordered := by
  induction meets generalizing place with
  | nil => cases due
  | cons first _ ih =>
      cases place with
      | zero =>
          cases due
          cases first
          exact .cons (.lexed settled) ‹_›
      | succ place => exact .cons first (ih due)

theorem source_of_due (meets : List.Forall₂ (Task.Meets good) tasks ordered) {place : Nat}
    {source : SourceFile} (due : tasks[place]? = some (.due source)) : source ∈ ordered := by
  induction meets generalizing place with
  | nil => cases due
  | cons first _ ih =>
      cases place with
      | zero =>
          cases due
          cases first
          exact List.mem_cons_self
      | succ place => exact List.mem_cons_of_mem _ (ih due)

theorem outcomes_of_meets (meets : List.Forall₂ (Task.Meets good) tasks ordered)
    {outcomes : List Build.Outcome} (whole : tasks.mapM Task.outcome? = some outcomes) :
    List.Forall₂ good ordered outcomes := by
  induction meets generalizing outcomes with
  | nil =>
      cases whole
      exact .nil
  | cons first _ ih =>
      rw [List.mapM_cons] at whole
      obtain ⟨outcome, here, whole⟩ := Option.bind_eq_some_iff.mp whole
      obtain ⟨others, later, whole⟩ := Option.bind_eq_some_iff.mp whole
      cases whole
      cases first with
      | due => cases here
      | lexed settled =>
          cases here
          exact .cons settled (ih later)

theorem mapM_of_forall₂ {step : SourceFile → Except Fault Build.Outcome}
    {outcomes : List Build.Outcome}
    (each : List.Forall₂ (fun source outcome => step source = .ok outcome) ordered outcomes) :
    ordered.mapM step = .ok outcomes := by
  induction each with
  | nil => rfl
  | cons first _ ih => exact mapM_cons_eq_ok.mpr ⟨_, _, first, ih, rfl⟩

end Tasks

theorem Opened.find_cases {store : Store} {disk : Disk} {previous : Option Opened}
    (found : Opened.find store disk = .ok previous) :
    previous = none ∨ ∃ opened, previous = some opened ∧ store.load disk = .ok opened.stored ∧
      Store.connect disk store.path = .ok opened.serial := by
  unfold Opened.find at found
  split at found
  · rename_i stored loaded
    obtain ⟨serial, connected, found⟩ := bind_eq_ok.mp found
    cases found
    exact .inr ⟨⟨serial, stored⟩, rfl, loaded, connected⟩
  · cases found
    exact .inl rfl
  · cases found
    exact .inl rfl
  · cases found

theorem Opened.find_eq_openPrevious {store : Store} {world : World} {previous : Option Opened}
    (found : Opened.find store world.disk = .ok previous) :
    ((openPrevious store).run world).1 = .ok (previous.map Opened.stored) := by
  unfold Opened.find at found
  split at found
  · rename_i stored loaded
    obtain ⟨serial, _, found⟩ := bind_eq_ok.mp found
    cases found
    exact openPrevious_of_load loaded
  · rename_i missing
    cases found
    exact openPrevious_of_missing missing
  · rename_i corrupt
    cases found
    exact openPrevious_of_corrupt corrupt
  · cases found

theorem path_of_open {store : Store} {disk : Disk} {stored : Stored}
    (loaded : store.load disk = .ok stored) : stored.path = store.path := by
  obtain ⟨content, _, loaded⟩ := Store.content_of_load loaded
  exact path_of_load loaded

/-- A worker that is connected to the file that is there reads as anyone does. -/
theorem Opened.reader_eq {disk : Disk} {path : Path} {opened : Opened} {link : Except Fault Nat}
    (connected : Store.connect disk path = link) (known : opened.stored.path = path) :
    opened.reader disk link = freshReader disk opened.stored := by
  rw [Opened.reader, freshReader, known, Store.contentAt, connected]
  cases link <;> rfl

section Alone

variable {ι : Type} [DecidableEq ι] {store : Store} {party : ι → Party} {s t : State ι} {i : ι}
  {disk : Disk}

/-- How far a build can be that nobody disturbs. -/
def Stage.Undisturbed (store : Store) (party : Party) (disk : Disk) : Stage → Prop
  | .lexing previous links tasks => Opened.find store disk = .ok previous ∧
      (∀ worker serial, links worker = some serial → Store.connect disk store.path = .ok serial) ∧
      ∃ ordered, Build.order party.readings.sources = .ok ordered ∧
        List.Forall₂ (Task.Meets (fun source outcome => Build.outcome
          (previous.map (fun opened => freshReader disk opened.stored)) source = .ok outcome))
          tasks ordered
  | _ => True

theorem undisturbed_start (store : Store) (party : Party) (disk : Disk) :
    (State.settle (State.begun store party disk)).Undisturbed store party disk := by
  cases begins : State.begun store party disk with
  | error fault => trivial
  | ok stage =>
      obtain ⟨previous, found, begins⟩ := bind_eq_ok.mp begins
      obtain ⟨ordered, sorted, begins⟩ := bind_eq_ok.mp begins
      cases begins
      exact ⟨found, nofun, ordered, sorted, meets_due ordered⟩

theorem undisturbed_lex {party : Party} {previous : Option Opened} {links : Nat → Option Nat}
    {tasks : List Task} {place worker : Nat} {source : SourceFile}
    (calm : (Stage.lexing previous links tasks).Undisturbed store party disk)
    (due : tasks[place]? = some (.due source)) :
    (State.settle (State.lexed previous links tasks disk (linkOf store disk links worker) place worker
      source)).Undisturbed store party disk := by
  obtain ⟨found, linked, ordered, sorted, meets⟩ := calm
  have link : Store.connect disk store.path = linkOf store disk links worker := by
    unfold linkOf
    cases held : links worker with
    | none => rfl
    | some serial => exact linked worker serial held
  have readers : previous.map (fun opened => opened.reader disk (linkOf store disk links worker)) =
      previous.map (fun opened => freshReader disk opened.stored) := by
    rcases Opened.find_cases found with rfl | ⟨opened, rfl, loaded, _⟩
    · rfl
    · exact congrArg some (Opened.reader_eq link (path_of_open loaded))
  cases looks : State.lexed previous links tasks disk (linkOf store disk links worker) place worker
      source with
  | error fault => trivial
  | ok stage =>
      obtain ⟨outcome, looked, looks⟩ := bind_eq_ok.mp looks
      cases looks
      rw [readers] at looked
      refine ⟨found, ?_, ordered, sorted, meets_set meets due looked⟩
      intro other serial told
      cases reached : linkOf store disk links worker with
      | error fault =>
          rw [reached] at told
          exact linked other serial told
      | ok own =>
          rw [reached] at told
          simp only [relink] at told
          split at told
          · by_cases same : other = worker
            · subst same
              rw [Function.update_self, Option.some.injEq] at told
              rw [link, reached, told]
            · rw [Function.update_of_ne same] at told
              exact linked other serial told
          · exact linked other serial told

theorem undisturbed_of_reaches
    (reached : Reaches store party (fun _ action => action.actor = i) (.idle disk) s) :
    (∃ outcome, s.stage i = .ended outcome) ∨
      s.disk = disk ∧ (s.stage i).Undisturbed store (party i) disk := by
  -- Until the build saves, the disk is as it was, so every link leads to the same file.
  induction reached with
  | start => exact .inr ⟨rfl, trivial⟩
  | @step s t action _ own stepped ih =>
      cases action with
      | start j =>
          simp only [Action.actor] at own
          subst own
          obtain ⟨waits, rfl⟩ := State.start_cases stepped
          rcases ih with ⟨outcome, ended⟩ | ⟨same, _⟩
          · cases waits.symm.trans ended
          · rw [State.put_disk, State.put_stage_self, same]
            exact .inr ⟨rfl, undisturbed_start store _ _⟩
      | lex j place worker =>
          simp only [Action.actor] at own
          subst own
          obtain ⟨previous, links, tasks, source, there, due, rfl⟩ := State.lex_cases stepped
          rcases ih with ⟨outcome, ended⟩ | ⟨same, calm⟩
          · cases there.symm.trans ended
          · rw [there] at calm
            rw [State.put_disk, State.put_stage_self, same]
            exact .inr ⟨rfl, undisturbed_lex calm due⟩
      | save j =>
          simp only [Action.actor] at own
          subst own
          obtain ⟨_, _, _, _, outcome, _, _, _, _, rfl⟩ := State.save_cases stepped
          exact .inl ⟨outcome, State.put_stage_self ..⟩

/-- A build that takes all steps and comes to its save does what the builder does at one go. -/
theorem alone_eq_build {call : Call} {readings : Discovery.Readings}
    (placed : call.settings.indexDirOf call.world.home call.root = .ok store.directory)
    (read : call.readings store = .ok readings) (same : party i = ⟨readings, call.details⟩)
    (reached : Reaches store party (fun _ action => action.actor = i) (.idle call.world.disk) s)
    (stepped : s.step store party (.save i) = some t) :
    ∃ result outcome after, t.stage i = .ended outcome ∧ after.disk = t.disk ∧
      call.run = (outcome.map (fun path => reportOf call.root path readings result), after) := by
  obtain ⟨previous, links, tasks, outcomes, outcome, left, there, whole, saved, rfl⟩ :=
    State.save_cases stepped
  rcases undisturbed_of_reaches reached with ⟨_, ended⟩ | ⟨disk, calm⟩
  · cases there.symm.trans ended
  · rw [there] at calm
    obtain ⟨found, _, ordered, sorted, meets⟩ := calm
    have looked := mapM_of_forall₂ (outcomes_of_meets meets whole)
    rw [same] at sorted saved
    rw [disk] at saved
    have built : buildIndex ((previous.map Opened.stored).map (freshReader call.world.disk))
        readings.sources = .ok (Build.resultOf outcomes) := by
      rw [buildIndex, Build.outcomes, sorted, ok_bind, Option.map_map]
      exact bind_eq_ok.mpr ⟨outcomes, looked, rfl⟩
    have ready := prepared_eq_ok.mpr ⟨read, _, Opened.find_eq_openPrevious found, built⟩
    obtain ⟨after, left, ran⟩ := build_eq placed
    have wrote : saveResult store call.root readings (Build.resultOf outcomes) call.world = _ := saved
    rw [ready, outcomeOf, wrote] at left ran
    exact ⟨_, outcome, after, State.put_stage_self .., left, ran⟩

end Alone

end TokenSearch.Service
