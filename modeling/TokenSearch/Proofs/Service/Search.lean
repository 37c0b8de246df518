import TokenSearch.Proofs.Artifact.Sound
import TokenSearch.Proofs.Search.Fragment
import TokenSearch.Proofs.Service.Rebuild

namespace TokenSearch.Service

/-! A search of whatever stands in the place of the artifact. Where the parts of the tables fit together,
it fails with nothing but the faults that a search announces. -/

open Data Artifact
open Store (bare)

/-- What a search comes to on a disk. -/
def searched (store : Store) (text : Text.RawText) (limit : Option Int) (disk : Disk) :
    Except Fault Response := do
  let query ← Query.compile text
  let stored ← store.load disk
  (freshReader disk stored).search query limit

theorem result_searchInstalled (store : Store) (text : Text.RawText) (limit : Option Int)
    (world : World) :
    ((searchInstalled store text limit).run world).1 = searched store text limit world.disk := by
  rw [searchInstalled, searched]
  refine Run.result_ofExcept_bind (fun query => ?_)
  rw [Run.get_bind_run]
  refine Run.result_ofExcept_bind (fun stored => ?_)
  have counted : (Run.count (fun metrics => { metrics with indexFiles := stored.entries.length })).run
      world = (.ok (), _) := rfl
  rw [Run.bind_of_ok counted, searchLogged]
  cases (freshReader world.disk stored).search query limit <;> rfl

theorem countFault_run {α : Type} {body : Run α} {world after : World} {outcome : Except Fault α}
    (done : body.run world = (outcome, after)) :
    ∃ last, (countFault body).run world = (outcome, last) := by
  have inner : (ExceptT.lift (ExceptT.run body) : Run _).run world = (.ok outcome, after) := by
    change (match body.run world with | (result, after) => (Except.ok result, after)) = _
    rw [done]
  rw [countFault, Run.bind_of_ok inner]
  cases outcome with
  | ok a => exact ⟨after, rfl⟩
  | error fault =>
      simp only
      split
      · exact ⟨_, rfl⟩
      · exact ⟨after, rfl⟩

def toldSearch (response : Response) : Telemetry.Attributes :=
  [("matches", countOf response.stats.matches_), ("files_matched", countOf response.stats.files)]

/-- A search inside its span, with the limit that counts. -/
def searchUpTo (root : Path) (text : Text.RawText) (limit : Option Int) (directory : Path) :
    Run Response := do
  Run.bindRoot root
  Run.traced "search" [("root", .text root.text), ("query", .text text)] do
    let response ← Run.finally_ (countFault (searchInstalled ⟨directory⟩ text limit))
      (Run.count (fun metrics => { metrics with searches := metrics.searches + 1 }))
    return (response, toldSearch response)

theorem result_searchUpTo (root : Path) (text : Text.RawText) (limit : Option Int) (store : Store)
    (world : World) : ((searchUpTo root text limit store.directory).run world).1 =
      searched store text limit world.disk := by
  have bound : (Run.bindRoot root).run world = (.ok (), world.bindRoot root.text) := rfl
  have same : (inside world root).disk = world.disk := rfl
  rw [searchUpTo, Run.bind_of_ok bound, ← same, ← result_searchInstalled]
  cases ran : (searchInstalled store text limit).run (inside world root) with
  | mk outcome after =>
      obtain ⟨counted, counts⟩ := countFault_run ran
      obtain ⟨last, _, ended⟩ := Run.finally_run counts
        (fun metrics => { metrics with searches := metrics.searches + 1 })
      have body : (Run.finally_ (countFault (searchInstalled store text limit))
          (Run.count (fun metrics => { metrics with searches := metrics.searches + 1 })) >>=
            fun response => pure (response, toldSearch response)).run (inside world root) =
          (outcome.map (fun response => (response, toldSearch response)), last) := by
        cases outcome with
        | ok response => exact (Run.bind_of_ok ended).trans rfl
        | error fault => exact Run.bind_of_error ended
      obtain ⟨_, _, traced⟩ := Run.traced_run (world.bindRoot root.text) body
      refine (congrArg Prod.fst traced).trans ?_
      cases outcome <;> rfl

variable {settings : Settings} {root : Path} {text : Text.RawText} {limit : Option Int}
  {world : World} {store : Store}

theorem checkLimit_of_nonneg (nonneg : ∀ most ∈ limit, 0 ≤ most) : checkLimit limit = .ok () := by
  cases limit with
  | none => rfl
  | some most =>
      have low : ¬ most < 0 := by
        have bound := nonneg most rfl
        omega
      rw [checkLimit, if_neg low]

/-- What is logged, counted and traced on the way makes no difference to a search. -/
theorem result_search (placed : settings.indexDirOf world.home root = .ok store.directory)
    (nonneg : ∀ most ∈ limit, 0 ≤ most) :
    ((search settings root text limit).run world).1 =
      searched store text (limit.or settings.limit) world.disk := by
  have allowed : (Run.ofExcept (checkLimit limit)).run world = (.ok (), world) := by
    rw [checkLimit_of_nonneg nonneg]
    rfl
  have asked : (indexDir settings root).run world = (.ok store.directory, world) := by
    change (Run.ofExcept (settings.indexDirOf world.home root)).run world = _
    rw [placed]
    rfl
  have whole : search settings root text limit = (do
      Run.ofExcept (checkLimit limit)
      indexDir settings root >>= searchUpTo root text (limit.or settings.limit)) := by
    cases limit <;> rfl
  rw [whole, Run.bind_of_ok allowed, Run.bind_of_ok asked, result_searchUpTo]

theorem announced_of_compile {text : Text.RawText} {fault : Fault}
    (failed : Query.compile text = .error fault) : fault.isAnnounced = true := by
  unfold Query.compile at failed
  split at failed
  · cases failed
    rfl
  · cases failed
    rfl
  · cases failed

/-- Once a query is compiled, only the artifact can be to blame. -/
theorem corruptAtWorst_of_occupied {disk : Disk} {home : List Text.RawText} {entries : Disk.Entries}
    {serial : Nat} {content : Content} (occupied : store.Occupied disk home entries serial)
    (readable : (disk.body serial).content? = some content)
    (sound : ∀ tables, content = .tables tables → Sound tables) (query : Query)
    (nonneg : ∀ most ∈ limit, 0 ≤ most) :
    CorruptAtWorst (store.load disk >>= fun stored => (freshReader disk stored).search query limit) := by
  have measured : content.Measured := fun tables held => (sound tables held).measured
  rw [occupied.load_eq readable]
  refine (CorruptAtWorst.load measured store.path).bind (fun stored opened => ?_)
  rw [freshReader, path_of_load opened, occupied.contentAt_eq readable]
  obtain ⟨header, headed, _⟩ := bind_eq_ok.mp opened
  obtain ⟨⟨tables, held, _⟩, _⟩ := header_of_loadHeader headed
  rw [held] at opened ⊢
  exact ((sound tables held).orderly opened).search query nonneg

/-- A search of a file in the place of the artifact returns, or fails with a fault that it announces,
whatever the file holds, as long as the parts of its tables fit together. -/
theorem search_announces {home : List Text.RawText} {entries : Disk.Entries} {serial : Nat}
    (placed : settings.indexDirOf world.home root = .ok store.directory)
    (occupied : store.Occupied world.disk home entries serial)
    (sound : ∀ tables, (world.disk.body serial).content? = some (.tables tables) → Sound tables)
    (nonneg : ∀ most ∈ limit.or settings.limit, 0 ≤ most) :
    (∃ response, ((search settings root text limit).run world).1 = .ok response) ∨
      ∃ fault, ((search settings root text limit).run world).1 = .error fault ∧
        fault.isAnnounced = true := by
  have given : ∀ most ∈ limit, 0 ≤ most := by
    intro most same
    exact nonneg most (by rw [Option.mem_def.mp same]; rfl)
  rw [result_search placed given]
  cases ended : searched store text (limit.or settings.limit) world.disk with
  | ok response => exact .inl ⟨response, rfl⟩
  | error fault =>
      refine .inr ⟨fault, rfl, ?_⟩
      rcases bind_eq_error.mp ended with early | ⟨query, _, late⟩
      · exact announced_of_compile early
      · cases readable : (world.disk.body serial).content? with
        | none =>
            rw [occupied.load_unreadable readable] at late
            cases late
            rfl
        | some content =>
            obtain ⟨path, cause, rfl⟩ := corruptAtWorst_of_occupied occupied readable
              (fun tables held => sound tables (held ▸ readable)) query nonneg fault late
            rfl

theorem compile_word : Query.compile (.ofString "x") = .ok ⟨"x", [wordAt 0], by decide⟩ :=
  @Query.compile_ofString "x" [wordAt 0] scan_word (List.cons_ne_nil _ _)

/-- The artifact of a word without its token rows. -/
def tokenlessTables : Tables := { wordTables with tokens := none }

/-- The artifact of a word with a posting list of three bytes. -/
def unevenTables : Tables :=
  { wordTables with postings := some [⟨.text "identifier", .text "x", .blob [0, 0, 0]⟩] }

theorem load_tokenless :
    bare.load (shelved tokenlessTables) = .ok (storedOf wordBuild.index "/" "" bare.path) := by
  rw [(shelved_installed tokenlessTables).load_eq]
  exact wordBuild_storable.countable.load wordBuild_storable.dense rfl rfl rfl bare.path

theorem load_uneven :
    bare.load (shelved unevenTables) = .ok (storedOf wordBuild.index "/" "" bare.path) := by
  rw [(shelved_installed unevenTables).load_eq]
  exact wordBuild_storable.countable.load_of_lists wordBuild_storable.dense rfl rfl rfl rfl bare.path

theorem searched_uneven :
    searched bare (.ofString "x") none (shelved unevenTables) = .error .unevenBlob := by
  rw [searched, compile_word, ok_bind, load_uneven, ok_bind, freshReader, path_storedOf,
    (shelved_installed unevenTables).contentAt_eq]
  rfl

theorem searched_tokenless : searched bare (.ofString "x") none (shelved tokenlessTables) =
    .error (.indexCorrupt bare.path (.noTable "tokens")) := by
  rw [searched, compile_word, ok_bind, load_tokenless, ok_bind, freshReader, path_storedOf,
    (shelved_installed tokenlessTables).contentAt_eq]
  rfl

theorem tokenless_sound : Sound tokenlessTables := by
  have lexed : ∀ file ∈ [wordFile], Lexer.tokenize file.source = .ok file.tokens := by
    intro file member
    cases List.mem_singleton.mp member
    exact tokenize_word
  have whole : Sound wordTables :=
    sound_tablesOf wordBuild_storable.dense wordBuild_storable.fitting lexed [] "/" ""
  exact ⟨⟨whole.measured.header, whole.measured.files, whole.measured.integers⟩, whole.files,
    whole.lists, by simp [tokenlessTables], by simp [tokenlessTables]⟩

/-- What a search for a word comes to where there is this artifact. -/
theorem result_wordCall (tables : Tables) :
    ((search (wordCall (shelved tables)).settings (wordCall (shelved tables)).root (.ofString "x")
      none).run (wordCall (shelved tables)).world).1 =
        searched bare (.ofString "x") none (shelved tables) :=
  result_search (wordCall_fits (shelved_writable tables)).placed nofun

theorem tokenless_announced :
    ∃ fault, ((search (wordCall (shelved tokenlessTables)).settings
      (wordCall (shelved tokenlessTables)).root (.ofString "x") none).run
        (wordCall (shelved tokenlessTables)).world).1 = .error fault ∧ fault.isAnnounced = true := by
  refine Or.resolve_left (search_announces
    (wordCall_fits (shelved_writable tokenlessTables)).placed
    (shelved_installed tokenlessTables).occupied ?_ ?_) ?_
  · intro tables held
    change some (Content.tables tokenlessTables) = _ at held
    cases held
    exact tokenless_sound
  · nofun
  · rw [result_wordCall, searched_tokenless]
    nofun

/-- Three bytes are no words, and the fault that says so is not one that a search announces. -/
theorem uneven_list_escapes :
    ∃ fault, ((search (wordCall (shelved unevenTables)).settings
      (wordCall (shelved unevenTables)).root (.ofString "x") none).run
        (wordCall (shelved unevenTables)).world).1 = .error fault ∧ fault.isAnnounced = false :=
  ⟨.unevenBlob, (result_wordCall unevenTables).trans searched_uneven, rfl⟩

end TokenSearch.Service
