import TokenSearch.Proofs.Artifact.Litter
import TokenSearch.Proofs.Artifact.Observation

namespace TokenSearch.Store

/-! A save is all or nothing. The index takes the place of the artifact and can be opened, or nothing
changes but that directories may have been made, whatever goes wrong on the way. -/

open Text Disk Artifact

/-- What goes wrong outside of the program while an index is saved. Making the directories stops
`levels` short of the last one, or a phase of the writing is broken off. By then there may be
anything under the names of the draft and of its journal. -/
inductive Trouble where
  | making (fault : Fault) (levels : Nat)
  | writing (phase : Phase) (fault : Fault) (draft journal : Option Record)

/-- What lies about where a phase is broken off. -/
def litter (store : Store) (nonce : String) (draft journal : Option Record) (reached : Disk) : Disk :=
  leave (leave reached (store.draft nonce) draft) (store.journal nonce) journal

/-- An installation that is broken off in the phase `broken`. -/
def installBroken (store : Store) (index : Index) (skipped : List SkippedFile) (details : Details)
    (broken : Phase) (fault : Fault) (draft journal : Option Record) :
    Disk → Except Fault Path × Disk :=
  store.installBy
    (fun reached phase =>
      if phase = broken then .error (fault, store.litter details.nonce draft journal reached)
      else (store.perform index skipped details reached phase).mapError (·, reached))
    (fun left => store.sweep left details.nonce)

/-- A save that meets with trouble, or with none. -/
def saveUnder (store : Store) (disk : Disk) (index : Index) (skipped : List SkippedFile)
    (details : Details) : Option Trouble → Except Fault Path × Disk
  | none => store.save disk index skipped details
  | some (.making fault levels) =>
      (.error fault, (disk.makeDirs (Nat.repeat Path.parent levels store.directory)).2)
  | some (.writing phase fault draft journal) =>
      store.within disk (store.installBroken index skipped details phase fault draft journal)

/-- What a save leaves that failed: all that was there, no file that was not, and if the directory
was there before, then the same artifact. -/
structure Undone (store : Store) (disk after : Disk) : Prop where
  spares : Spares nowhere disk after
  files : ∀ place serial, after.root.find? place = some (.file serial) →
    disk.root.find? place = some (.file serial) ∧ after.record? serial = disk.record? serial
  same : ∀ home entries, disk.Home store.directory home entries →
    store.load after = store.load disk ∧
      contentAt after store.path = contentAt disk store.path

/-- What a save leaves that returned: the artifact is another one, and opens as the index. -/
structure Renewed (store : Store) (disk after : Disk) (index : Index)
    (skipped : List SkippedFile) : Prop where
  spares : ∃ home entries, after.Home store.directory home entries ∧
    Spares (fun place => (home ++ [RawText.ofString fileName]) <+: place) disk after
  opened : ∃ stored, store.load after = .ok stored ∧ stored.tokenCount = .ok index.tokenCount ∧
    (stored.reader (contentAt after stored.path)).Agrees index.reader ∧
    (contentAt after stored.path).bind stored.skippedFiles =
      .ok (((latest skipped).mergeSort (fun a b => decide (a.path ≤ b.path))).map SkippedRow.ofFile)

/-- No file of the directory has the name of the draft or of its journal. -/
def Unused (store : Store) (disk : Disk) (nonce : String) : Prop :=
  ∀ home entries, (store.prepare disk).2.Home store.directory home entries →
    entries.get? (draftName nonce) = none ∧ entries.get? (journalName nonce) = none

/-- If there is a link under the name of the artifact, the path of the directory does not need it. -/
def AvoidsLink (store : Store) (disk : Disk) : Prop :=
  ∀ home entries target, (store.prepare disk).2.Home store.directory home entries →
    entries.get? fileName = some (.link target) → Firm store (store.prepare disk).2 home entries

/-- A directory that holds another one, and a link to that under the name of the artifact. -/
def linkedEntries : Entries :=
  .cons (RawText.ofString "sub") (.dir .nil)
    (.cons (RawText.ofString fileName) (.link (RawText.ofString "sub")) .nil)

theorem linkedEntries_slot : linkedEntries.get? fileName = some (.link (RawText.ofString "sub")) :=
  rfl

def linkedDisk : Disk := ⟨.cons (RawText.ofString "d") (.dir linkedEntries) .nil, [], [], 0, default⟩

/-- The same directory, by a path that goes through the link. -/
def behindLink : Store := ⟨Path.ofString "d/index.db/.."⟩

theorem behindLink_load (tables : Tables) :
    behindLink.load (saved linkedDisk [RawText.ofString "d"] wordDetails.nonce tables) =
      .error (.indexMissing behindLink.path) := by
  cbv

/-- The artifact takes the place of the link through which its own path goes. -/
theorem behindLink_save_lost :
    ∃ after, behindLink.save linkedDisk wordIndex wordSkipped wordDetails =
        (.ok behindLink.path, after) ∧
      behindLink.load after = .error (.indexMissing behindLink.path) := by
  have ready : behindLink.prepare linkedDisk = (.ok (), linkedDisk) := by cbv
  have at_ : linkedDisk.Home behindLink.directory [RawText.ofString "d"] linkedEntries :=
    home_of_locate (by cbv)
  obtain ⟨begun, started⟩ : ∃ begun, behindLink.begin linkedDisk wordDetails.nonce = .ok begun :=
    ⟨_, by cbv⟩
  have encoded := wordIndex_storable.encode wordDetails_rooted
    (behindLink.draft wordDetails.nonce) wordDetails.created
  have slot (below : Entries) : linkedEntries.get? fileName ≠ some (.dir below) := by
    simp [linkedEntries_slot]
  have fresh : linkedEntries.get? (draftName wordDetails.nonce) = none := rfl
  have wrote := install_eq_ok started encoded at_ slot fresh
  rw [save, within, ready]
  exact ⟨_, wrote, behindLink_load _⟩

/-- The disk refuses nothing that a save asks for. -/
structure AdmitsSave (store : Store) (disk : Disk) (nonce : String) : Prop where
  ready : (store.prepare disk).1 = .ok ()
  begins : ∃ begun, store.begin (store.prepare disk).2 nonce = .ok begun
  slot : ∀ home entries below, (store.prepare disk).2.Home store.directory home entries →
    entries.get? fileName ≠ some (.dir below)

variable {store : Store} {disk after : Disk} {home : List RawText} {entries : Entries}
  {index : Index} {skipped : List SkippedFile} {details : Details}

theorem prepare_eq {outcome : Except Fault Unit} (told : (store.prepare disk).1 = outcome) :
    store.prepare disk = (outcome, (store.prepare disk).2) := Prod.ext told rfl

theorem prepare_spares (sound : disk.Sound) (store : Store) :
    Spares nowhere disk (store.prepare disk).2 := by
  rw [prepare_disk]
  exact makeDirs_spares sound.hasCurrent store.directory

theorem Undone.of_kept (sound : disk.Sound) (kept : Kept (store.prepare disk).2 after) :
    Undone store disk after where
  spares := (prepare_spares sound store).trans kept.spares
  files := fun _ _ => ((prepare_spares sound store).trans kept.spares).file_eq sound id
  same := by
    intro home entries at_
    rw [prepare_of_home at_] at kept
    exact ⟨kept.load_eq sound, kept.contentAt_eq sound store.path⟩

theorem Undone.of_makeDirs (sound : disk.Sound) (levels : Nat) :
    Undone store disk (disk.makeDirs (Nat.repeat Path.parent levels store.directory)).2 where
  spares := makeDirs_spares sound.hasCurrent _
  files := fun _ _ => (makeDirs_spares sound.hasCurrent _).file_eq sound id
  same := by
    intro home entries at_
    rw [at_.makeDirs_above sound.hasCurrent levels]
    exact ⟨rfl, rfl⟩

theorem spares_saved (found : disk.root.find? home = some (.dir entries)) (nonce : String)
    (tables : Tables) :
    Spares (fun place => (home ++ [RawText.ofString fileName]) <+: place) disk
      (saved disk home nonce tables) where
  current := rfl
  next := Nat.le_succ _
  places := fun _ avoids => .inl (Entries.kind_set found (some (.file disk.next)) avoids)
  records := fun serial old => (added_filled disk home nonce tables).records serial old
  system := rfl

/-- Tables that were encoded open as their index, wherever they lie. -/
theorem opens_of_encode {draft : Path} {root : RawText} {created : String} {tables : Tables}
    (encoded : encode draft index skipped root created = .ok tables)
    (dense : Index.Dense index.files) (countable : Countable index) (path : Path) :
    ∃ stored, Stored.load path (.tables tables) = .ok stored ∧ stored.path = path ∧
      stored.tokenCount = .ok index.tokenCount ∧
      (stored.reader (.ok (.tables tables))).Agrees index.reader ∧
      stored.skippedFiles (.tables tables) =
        .ok (((latest skipped).mergeSort (fun a b => decide (a.path ≤ b.path))).map
          SkippedRow.ofFile) := by
  obtain ⟨kept, rows, _, left, rfl, fitting⟩ := tables_of_encode encoded
  obtain ⟨_, rfl⟩ := skippedRows_eq_ok.mp left
  exact ⟨storedOf index kept created path, countable.load dense rfl rfl rfl path, path_storedOf ..,
    tokenCount_storedOf countable, fitting.agrees dense rfl rfl rfl, skippedFiles_eq _ rfl⟩

theorem Installed.opens {serial : Nat} {tables : Tables}
    (installed : Installed store after home entries serial tables)
    (encoded : encode (store.draft details.nonce) index skipped details.root details.created =
      .ok tables) (dense : Index.Dense index.files)
    (few : index.postings.length < Decimal.tenTo Text.Integer.digitLimit) :
    ∃ stored, store.load after = .ok stored ∧ stored.tokenCount = .ok index.tokenCount ∧
      (stored.reader (contentAt after stored.path)).Agrees index.reader ∧
      (contentAt after stored.path).bind stored.skippedFiles =
        .ok (((latest skipped).mergeSort (fun a b => decide (a.path ≤ b.path))).map
          SkippedRow.ofFile) := by
  obtain ⟨_, _, _, _, _, fitting⟩ := tables_of_encode encoded
  obtain ⟨stored, opened, path, counts, agrees, told⟩ :=
    opens_of_encode encoded dense (countable_of_fits dense fitting.fileNumbers few) store.path
  refine ⟨stored, installed.load_eq.trans opened, counts, ?_, ?_⟩
  · rw [path, installed.contentAt_eq]
    exact agrees
  · rw [path, installed.contentAt_eq]
    exact told

theorem firm_of_avoidsLink (avoids : store.AvoidsLink disk)
    (at_ : (store.prepare disk).2.Home store.directory home entries)
    (slot : ∀ below, entries.get? fileName ≠ some (.dir below)) :
    Firm store (store.prepare disk).2 home entries := by
  cases held : entries.get? fileName with
  | none => exact firm_of_leaf at_ (held ▸ .none)
  | some node =>
      cases node with
      | file serial => exact firm_of_leaf at_ (held ▸ .file serial)
      | link target => exact avoids home entries target at_ held
      | dir below => exact absurd held (slot below)

theorem prepare_home (sound : disk.Sound) (ready : (store.prepare disk).1 = .ok ()) :
    ∃ home entries, (store.prepare disk).2.Home store.directory home entries := by
  have done := prepare_ok (prepare_eq ready)
  obtain ⟨home, entries, at_⟩ :=
    (makeDirs_made sound.hasCurrent store.directory).2 (congrArg Prod.fst done)
  rw [done] at at_
  exact ⟨home, entries, at_⟩

theorem save_of_ready (ready : (store.prepare disk).1 = .ok ()) (index : Index)
    (skipped : List SkippedFile) (details : Details) :
    store.save disk index skipped details =
      store.install (store.prepare disk).2 index skipped details := by
  rw [save, within, prepare_eq ready]

/-- An installation that is broken off fails, and the directory is swept clean behind it. -/
theorem installBroken_kept (at_ : disk.Home store.directory home entries)
    (fresh : entries.get? (draftName details.nonce) = none)
    (free : entries.get? (journalName details.nonce) = none) (index : Index)
    (skipped : List SkippedFile) (broken : Phase) (fault : Fault) (draft journal : Option Record) :
    ∃ told after, store.installBroken index skipped details broken fault draft journal disk =
      (.error told, after) ∧ Kept disk after := by
  rw [installBroken, installBy]
  split
  · rename_i installed ran
    -- the phase that is broken off is one of those that are gone through
    obtain ⟨begun, started, ran⟩ := Data.bind_eq_ok.mp (Phase.all_foldlM _ disk ▸ ran)
    obtain ⟨full, filled, moved⟩ := Data.bind_eq_ok.mp ran
    cases broken with
    | opening => cases started
    | filling => cases filled
    | moving => cases moved
  · rename_i told left ran
    obtain ⟨reached, phase, drafted, failed⟩ := Drafted.of_foldlM (fun _ _ _ early drafted done => by
      split at done
      · cases done
      · exact drafted.perform at_ fresh early (Data.mapError_eq_ok.mp done)) ran
    refine ⟨told, _, rfl, ?_⟩
    split at failed
    · cases failed
      exact (drafted.leave at_ fresh draft).kept_sweep at_ fresh free journal
    · cases ended : store.perform index skipped details reached phase with
      | ok next => simp [ended, Data.ok_mapError] at failed
      | error own =>
          rw [ended] at failed
          cases failed
          exact drafted.kept_sweep at_ fresh free none

/-- A save whose writing is broken off leaves the old artifact, or none. -/
theorem Keeps.broken {kind : Tables → Prop} (keeps : store.Keeps kind disk)
    (unused : store.Unused disk details.nonce) (index : Index) (skipped : List SkippedFile)
    (phase : Phase) (fault : Fault) (draft journal : Option Record) :
    store.Keeps kind (store.saveUnder disk index skipped details
      (some (.writing phase fault draft journal))).2 := by
  rw [saveUnder]
  rcases keeps.within_cases (store.installBroken index skipped details phase fault draft journal)
    with ⟨fault, made, failed, stays⟩ | ⟨made, home, entries, goesOn, prepared, at_, _, stays⟩
  · rw [failed]
    exact stays
  · obtain ⟨fresh, free⟩ := unused home entries (prepared ▸ at_)
    obtain ⟨told, after, failed, kept⟩ :=
      installBroken_kept at_ fresh free index skipped phase fault draft journal
    rw [goesOn, failed]
    exact stays after kept

/-- An installation that would return tells, when it is broken off, why it was. -/
theorem installBroken_told {path : Path}
    (wrote : store.install disk index skipped details = (.ok path, after)) (broken : Phase)
    (fault : Fault) (draft journal : Option Record) :
    (store.installBroken index skipped details broken fault draft journal disk).1 =
      .error fault := by
  obtain ⟨begun, full, started, filled, _⟩ := phases_of_install wrote
  have opened : store.perform index skipped details disk .opening = .ok begun := started
  rw [installBroken, installBy, Phase.all_foldlM]
  cases broken with
  | opening => rfl
  | filling =>
      rw [if_neg (by decide), opened]
      rfl
  | moving =>
      rw [if_neg (by decide), opened, Data.ok_mapError, Data.ok_bind, if_neg (by decide), filled]
      rfl

theorem saveUnder_cases (sound : disk.Sound) (unused : store.Unused disk details.nonce)
    (avoids : store.AvoidsLink disk) (dense : Index.Dense index.files)
    (few : index.postings.length < Decimal.tenTo Text.Integer.digitLimit)
    (skipped : List SkippedFile) (trouble : Option Trouble) :
    (∃ fault after, store.saveUnder disk index skipped details trouble = (.error fault, after) ∧
      Undone store disk after) ∨
    ∃ after, store.saveUnder disk index skipped details trouble = (.ok store.path, after) ∧
      Renewed store disk after index skipped := by
  cases ready : (store.prepare disk).1 with
  | error fault =>
      cases trouble with
      | none =>
          refine .inl ⟨fault, (store.prepare disk).2, ?_, .of_kept sound (.refl _)⟩
          rw [saveUnder, save, within, prepare_eq ready]
      | some trouble =>
          cases trouble with
          | making outer levels => exact .inl ⟨outer, _, rfl, .of_makeDirs sound levels⟩
          | writing phase outer draft journal =>
              refine .inl ⟨fault, (store.prepare disk).2, ?_, .of_kept sound (.refl _)⟩
              rw [saveUnder, within, prepare_eq ready]
  | ok _ =>
      obtain ⟨home, entries, at_⟩ := prepare_home sound ready
      obtain ⟨fresh, free⟩ := unused home entries at_
      cases trouble with
      | none =>
          rw [saveUnder, save_of_ready ready]
          rcases install_firm at_ fresh (firm_of_avoidsLink avoids at_) index skipped with
            ⟨fault, after, failed, kept⟩ | ⟨tables, wrote, encoded, installed⟩
          · exact .inl ⟨fault, after, failed, .of_kept sound kept⟩
          · have spared := (prepare_spares sound store).trans
              (spares_saved at_.found details.nonce tables)
            exact .inr ⟨_, wrote, ⟨home, _, installed.at_, spared⟩,
              installed.opens encoded dense few⟩
      | some trouble =>
          cases trouble with
          | making fault levels => exact .inl ⟨fault, _, rfl, .of_makeDirs sound levels⟩
          | writing phase fault draft journal =>
              obtain ⟨told, after, failed, kept⟩ :=
                installBroken_kept at_ fresh free index skipped phase fault draft journal
              refine .inl ⟨told, after, ?_, .of_kept sound kept⟩
              rw [saveUnder, within, prepare_eq ready, ← failed]

theorem encoded_of_install {path : Path}
    (returned : (store.install disk index skipped details).1 = .ok path) :
    ∃ tables, encode (store.draft details.nonce) index skipped details.root details.created =
      .ok tables := by
  obtain ⟨_, _, _, filled, _, _⟩ := phases_of_install (Prod.ext returned rfl)
  obtain ⟨tables, encoded, _⟩ := Data.bind_eq_ok.mp filled
  exact ⟨tables, encoded⟩

theorem save_returns_iff (sound : disk.Sound) (unused : store.Unused disk details.nonce)
    (admits : store.AdmitsSave disk details.nonce) {kept : String}
    (rooted : keepText details.root = .ok kept) (index : Index) (skipped : List SkippedFile) :
    (store.save disk index skipped details).1 = .ok store.path ↔
      Fitting index ∧ ∀ file ∈ skipped, ∀ n ∈ file.offset, Cell.fitsColumn n = true := by
  obtain ⟨home, entries, at_⟩ := prepare_home sound admits.ready
  rw [save_of_ready admits.ready]
  constructor
  · intro returned
    obtain ⟨tables, encoded⟩ := encoded_of_install returned
    obtain ⟨_, rows, _, left, _, fitting⟩ := tables_of_encode encoded
    exact ⟨fitting, (skippedRows_eq_ok.mp left).1⟩
  · rintro ⟨fitting, offsets⟩
    obtain ⟨begun, started⟩ := admits.begins
    have encoded := fitting.encode (skippedRows_eq_ok.mpr ⟨offsets, rfl⟩) rooted
      (store.draft details.nonce) details.created
    rw [install_eq_ok started encoded at_ (fun below => admits.slot home entries below at_)
      (unused home entries at_).1]

/-- A save that fails leaves every file as it was, adds none, and one that returns leaves an artifact
that opens as the index. Where nothing is refused, it returns if and only if the paths of the files
are distinct and all numbers fit. -/
theorem save_all_or_nothing (sound : disk.Sound) (unused : store.Unused disk details.nonce)
    (avoids : store.AvoidsLink disk) (dense : Index.Dense index.files)
    (few : index.postings.length < Decimal.tenTo Text.Integer.digitLimit)
    (skipped : List SkippedFile) :
    (∀ trouble,
      (∃ fault after, store.saveUnder disk index skipped details trouble = (.error fault, after) ∧
        Undone store disk after) ∨
      ∃ after, store.saveUnder disk index skipped details trouble = (.ok store.path, after) ∧
        Renewed store disk after index skipped) ∧
    (store.AdmitsSave disk details.nonce → ∀ kept, keepText details.root = .ok kept →
      ((store.save disk index skipped details).1 = .ok store.path ↔
        Fitting index ∧ ∀ file ∈ skipped, ∀ n ∈ file.offset, Cell.fitsColumn n = true)) :=
  ⟨saveUnder_cases sound unused avoids dense few skipped,
    fun admits _ rooted => save_returns_iff sound unused admits rooted index skipped⟩

theorem linkedDisk_sound : linkedDisk.Sound :=
  sound_of_serials (Entries.isDir_nil _) (by decide)

def besideLink : Store := ⟨Path.ofString "d"⟩

theorem linkedDisk_home :
    linkedDisk.Home besideLink.directory [RawText.ofString "d"] linkedEntries :=
  home_of_locate (by cbv)

theorem besideLink_prepare : besideLink.prepare linkedDisk = (.ok (), linkedDisk) := by cbv

theorem besideLink_unused : besideLink.Unused linkedDisk "0" := by
  intro home entries at_
  rw [besideLink_prepare] at at_
  obtain ⟨rfl, rfl⟩ := home_determined linkedDisk_home at_
  exact ⟨by decide, by decide⟩

theorem besideLink_avoidsLink : besideLink.AvoidsLink linkedDisk := by
  intro home entries target at_ _
  rw [besideLink_prepare] at at_ ⊢
  obtain ⟨rfl, rfl⟩ := home_determined linkedDisk_home at_
  exact ⟨home_of_locate (by cbv), by cbv⟩

theorem besideLink_admits : besideLink.AdmitsSave linkedDisk "0" where
  ready := by rw [besideLink_prepare]
  begins := ⟨_, by rw [besideLink_prepare]; cbv⟩
  slot := by
    intro home entries below at_
    rw [besideLink_prepare] at at_
    obtain ⟨rfl, rfl⟩ := home_determined linkedDisk_home at_
    simp [linkedEntries_slot]

/-- A link under the name of the artifact is replaced, or stays if the draft cannot be written. -/
theorem besideLink_saved :
    (∃ after, besideLink.saveUnder linkedDisk wordIndex wordSkipped wordDetails none =
        (.ok besideLink.path, after) ∧ Renewed besideLink linkedDisk after wordIndex wordSkipped) ∧
      ∀ phase fault draft journal, ∃ after,
        besideLink.saveUnder linkedDisk wordIndex wordSkipped wordDetails
            (some (.writing phase fault draft journal)) = (.error fault, after) ∧
          Undone besideLink linkedDisk after := by
  obtain ⟨outcome, returns⟩ := @save_all_or_nothing besideLink linkedDisk wordIndex wordDetails
    linkedDisk_sound besideLink_unused besideLink_avoidsLink wordFiles_dense
    (short_of_fits wordIndex_storable.postingKeys) wordSkipped
  have returned := (returns besideLink_admits "/" wordDetails_rooted).mpr
    ⟨wordIndex_storable.fitting, wordIndex_storable.skippedNumbers⟩
  refine ⟨?_, fun phase fault draft journal => ?_⟩
  · rcases outcome none with ⟨fault, after, failed, _⟩ | done
    · rw [saveUnder] at failed
      rw [failed] at returned
      cases returned
    · exact done
  · have told : (besideLink.saveUnder linkedDisk wordIndex wordSkipped wordDetails
        (some (.writing phase fault draft journal))).1 = .error fault := by
      rw [save, within, besideLink_prepare] at returned
      rw [saveUnder, within, besideLink_prepare]
      exact installBroken_told (Prod.ext returned rfl) phase fault draft journal
    rcases outcome (some (.writing phase fault draft journal)) with
      ⟨other, after, failed, undone⟩ | ⟨after, wrote, _⟩
    · rw [failed] at told
      cases told
      exact ⟨after, failed, undone⟩
    · rw [wrote] at told
      cases told

end TokenSearch.Store
