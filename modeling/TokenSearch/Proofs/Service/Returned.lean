import TokenSearch.Proofs.Artifact.Replace
import TokenSearch.Proofs.Index.Accounts
import TokenSearch.Proofs.Service.Rebuild

namespace TokenSearch.Service

/-! What a build that returned has read, built and installed, whatever stood in the place of the
artifact before. -/

open Data Artifact

variable {call : Call} {store : Store} {made : Disk} {home : List Text.RawText}
  {entries : Disk.Entries} {report : BuildReport} {after : World}

structure Leaves (call : Call) (store : Store) (readings : Discovery.Readings)
    (previous : Option Stored) (result : BuildResult) (tables : Tables) (after : Disk) : Prop where
  read : call.readings store = .ok readings
  opened : ((openPrevious store).run call.world).1 = .ok previous
  built : buildIndex (previous.map (freshReader call.world.disk)) readings.sources = .ok result
  encoded : Artifact.encode (store.draft call.details.nonce) result.index
    (byPath (readings.skipped ++ result.skipped)) call.details.root call.details.created =
      .ok tables
  installed : ∃ home entries serial, store.Installed after home entries serial tables

/-- What a build has read and built, and the save that came through. -/
structure Does (call : Call) (store : Store) (made : Disk) (readings : Discovery.Readings)
    (previous : Option Stored) (result : BuildResult) (after : Disk) : Prop where
  read : call.readings store = .ok readings
  opened : ((openPrevious store).run call.world).1 = .ok previous
  built : buildIndex (previous.map (freshReader call.world.disk)) readings.sources = .ok result
  prepared : store.prepare call.world.disk = (.ok (), made)
  wrote : store.install made result.index (byPath (readings.skipped ++ result.skipped))
    call.details = (.ok store.path, after)

theorem Call.does (placed : call.settings.indexDirOf call.world.home call.root = .ok store.directory)
    (returned : call.run = (.ok report, after)) :
    ∃ made readings previous result,
      Does call store made readings previous result after.disk ∧
      report = reportOf call.root store.path readings result := by
  obtain ⟨last, disk, ran⟩ := build_eq placed
  cases ready : Service.prepared call.settings call.root store call.sources call.world with
  | error fault =>
      rw [ready] at ran
      cases returned.symm.trans ran
  | ok ahead =>
      obtain ⟨readings, result⟩ := ahead
      obtain ⟨read, previous, opened, built⟩ := prepared_eq_ok.mp ready
      rw [ready, outcomeOf, saveResult, Store.save, Store.within] at disk ran
      cases prepared : store.prepare call.world.disk with
      | mk outcome made =>
          rw [prepared] at disk ran
          cases outcome with
          | error fault => cases returned.symm.trans ran
          | ok _ =>
              cases wrote : store.install made result.index
                  (byPath (readings.skipped ++ result.skipped)) call.details with
              | mk outcome left =>
                  simp only [Call.details] at wrote
                  simp only [wrote] at disk ran
                  cases outcome with
                  | error fault => cases returned.symm.trans ran
                  | ok path =>
                      cases returned.symm.trans ran
                      cases Store.path_of_install wrote
                      exact ⟨made, readings, previous, result,
                        ⟨read, opened, built, prepared, disk ▸ wrote⟩, rfl⟩

theorem Call.leaves (placed : call.settings.indexDirOf call.world.home call.root = .ok store.directory)
    (prepared : store.prepare call.world.disk = (.ok (), made))
    (at_ : made.Home store.directory home entries)
    (slot : Disk.IsLeaf (entries.get? Store.fileName))
    (fresh : entries.get? (Store.draftName call.details.nonce) = none)
    (returned : call.run = (.ok report, after)) :
    ∃ readings previous result tables,
      Leaves call store readings previous result tables after.disk ∧
      (∃ begun, store.begin made call.details.nonce = .ok begun) ∧
      report = reportOf call.root store.path readings result := by
  obtain ⟨_, readings, previous, result, does, told⟩ := Call.does placed returned
  cases prepared.symm.trans does.prepared
  obtain ⟨tables, written⟩ := Store.written_of_install at_ fresh does.wrote
  have installed := written.installed (Store.firm_of_leaf at_ slot)
  exact ⟨readings, previous, result, tables,
    ⟨does.read, does.opened, does.built, written.encoded, _, _, _, installed⟩,
    Store.begin_of_install does.wrote, told⟩

namespace Does

variable {readings : Discovery.Readings} {previous : Option Stored} {result : BuildResult}
  {left : Disk}

/-- The directory of the artifact is there when a build has returned. -/
theorem at_home (does : Does call store made readings previous result left)
    (hasCurrent : call.world.disk.HasCurrent) :
    ∃ home entries, made.Home store.directory home entries := by
  have found := (Disk.makeDirs_made hasCurrent store.directory).2
  rw [Store.prepare_ok does.prepared] at found
  exact found rfl

theorem unused (does : Does call store made readings previous result left)
    (fresh : store.Fresh call.world.disk call.details.nonce)
    (at_ : made.Home store.directory home entries) :
    entries.get? (Store.draftName call.details.nonce) = none := by
  rw [Store.Fresh, does.prepared] at fresh
  exact fresh home entries at_

theorem written (does : Does call store made readings previous result left)
    (fresh : store.Fresh call.world.disk call.details.nonce)
    (at_ : made.Home store.directory home entries) :
    ∃ tables, Store.Written store made home entries result.index
      (byPath (readings.skipped ++ result.skipped)) call.details tables left :=
  Store.written_of_install at_ (does.unused fresh at_) does.wrote

end Does

/-- An artifact that can be opened behind a build that returned is the one that the build installed. -/
theorem Call.leaves_of_content {content : Content}
    (placed : call.settings.indexDirOf call.world.home call.root = .ok store.directory)
    (hasCurrent : call.world.disk.HasCurrent)
    (fresh : store.Fresh call.world.disk call.details.nonce)
    (returned : call.run = (.ok report, after))
    (there : Store.contentAt after.disk store.path = .ok content) :
    ∃ readings previous result tables,
      Leaves call store readings previous result tables after.disk ∧
      report = reportOf call.root store.path readings result := by
  obtain ⟨made, readings, previous, result, does, told⟩ := Call.does placed returned
  obtain ⟨home, entries, at_⟩ := does.at_home hasCurrent
  obtain ⟨tables, written⟩ := does.written fresh at_
  obtain ⟨serial, connected, _⟩ := bind_eq_ok.mp there
  have installed := written.installed_of_connect at_ connected
  exact ⟨readings, previous, result, tables,
    ⟨does.read, does.opened, does.built, written.encoded, _, _, _, installed⟩, told⟩

namespace Leaves

variable {readings : Discovery.Readings} {previous : Option Stored} {result : BuildResult}
  {tables : Tables} {left : Disk}

theorem content (leaves : Leaves call store readings previous result tables left) :
    Store.contentAt left store.path = .ok (.tables tables) := by
  obtain ⟨home, entries, serial, installed⟩ := leaves.installed
  exact installed.contentAt_eq

theorem accounts (leaves : Leaves call store readings previous result tables left) :
    ∃ ordered, Build.order readings.sources = .ok ordered ∧ result.Accounts ordered := by
  obtain ⟨ordered, sorted⟩ := order_of_buildIndex leaves.built
  exact ⟨ordered, sorted, accounts_of_buildIndex sorted leaves.built⟩

theorem tables_eq (leaves : Leaves call store readings previous result tables left) :
    ∃ kept, keepText call.details.root = .ok kept ∧ Fitting result.index ∧
      tables = tablesOf result.index ((latest (byPath (readings.skipped ++ result.skipped))).map
        SkippedRow.ofFile) kept call.details.created := by
  obtain ⟨kept, rows, rooted, found, same, fitting⟩ := tables_of_encode leaves.encoded
  obtain ⟨_, rfl⟩ := skippedRows_eq_ok.mp found
  exact ⟨kept, rooted, fitting, same⟩

/-- The artifact that a build leaves can be opened. -/
theorem load (leaves : Leaves call store readings previous result tables left) {kept : String}
    (fitting : Fitting result.index)
    (same : tables = tablesOf result.index ((latest (byPath (readings.skipped ++ result.skipped))).map
      SkippedRow.ofFile) kept call.details.created) :
    Countable result.index ∧
      store.load left = .ok (storedOf result.index kept call.details.created store.path) := by
  obtain ⟨ordered, _, accounts⟩ := leaves.accounts
  obtain ⟨home, entries, serial, installed⟩ := leaves.installed
  have countable : Countable result.index := by
    rw [accounts.postings]
    exact countable_ofFiles accounts.dense fitting.fileNumbers
  refine ⟨countable, ?_⟩
  rw [installed.load_eq, same]
  exact countable.load accounts.dense rfl rfl rfl store.path

end Leaves

end TokenSearch.Service
