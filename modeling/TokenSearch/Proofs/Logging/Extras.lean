import Mathlib.Data.List.Nodup
import TokenSearch.Logging.Format
import TokenSearch.Proofs.Data.Assoc
import TokenSearch.Proofs.Data.Result
import TokenSearch.Proofs.Disk.Names

namespace TokenSearch.Logging

/-! Values attached to log records, as the lines of these records show them. A text is cut where it
is too long. Any other value that is written as one text is written in full. -/

open Data

namespace Value

/-- The whole text as which a value is written, if it is written as one text: a path with slashes,
bytes as the text that they encode, any other object in its words. -/
def whole? : Value → Option String
  | .text value => some value
  | .path value => value.text.toString?
  | .bytes value | .byteArray value => some (Text.Utf8.decodeLossy value)
  | .decimal value => some value.text
  | .other _ words _ => some words
  | _ => none

theorem toJson_eq_text_iff {depth : Nat} {value : Value} {full : String} :
    value.toJson depth = .ok (.text full) ↔ value.whole? = some full := by
  cases value with
  | null | flag | text | bytes | byteArray | decimal | other => simp [toJson, whole?]
  | integer n =>
      rw [toJson]
      split <;> simp [whole?]
  | number x =>
      rw [toJson, Json.number]
      split <;> simp [whole?]
  | path path =>
      rw [toJson, rawToJson, whole?]
      cases path.text.toString? <;> simp
  | list items | set items | frozenSet items =>
      cases items with
      | nil => simp [toJson, whole?]
      | cons first rest =>
          simp only [toJson, whole?, bind_eq_ok, pure_eq_ok, Except.ok.injEq]
          simp
  | mapping members =>
      simp only [toJson, whole?, bind_eq_ok, pure_eq_ok, Except.ok.injEq]
      simp

end Value

/-- What a line shows of a value that is written as one text. -/
theorem toJson_clip {depth : Nat} {value : Value} {full : String}
    (whole : value.whole? = some full) :
    ∃ shown, (clip value).toJson depth = .ok (.text shown) ∧
      (full.length ≤ fieldLimit → shown = full) ∧
      (shown.length ≤ fieldLimit + 3 ↔
        (∃ text, value = .text text) ∨ full.length ≤ fieldLimit + 3) := by
  cases value with
  | text value =>
      cases whole
      by_cases long : fieldLimit < full.length
      · have length : ((full.take fieldLimit).toString ++ "...").length = fieldLimit + 3 := by
          have front : (full.take fieldLimit).toString.length = fieldLimit := by
            rw [← String.length_toList]
            change (full.take fieldLimit).copy.toList.length = fieldLimit
            rw [String.toList_copy_take, List.length_take, String.length_toList]
            omega
          rw [String.length_append, front]
          rfl
        refine ⟨_, by rw [clip, if_pos long, Value.toJson], fun short => absurd long (by omega), ?_⟩
        exact ⟨fun _ => .inl ⟨full, rfl⟩, fun _ => Nat.le_of_eq length⟩
      · refine ⟨full, by rw [clip, if_neg long, Value.toJson], fun _ => rfl, ?_⟩
        exact ⟨fun _ => .inl ⟨full, rfl⟩, fun _ => by omega⟩
  | null | flag | integer | number | list | mapping | set | frozenSet => cases whole
  | path | bytes | byteArray | decimal | other =>
      exact ⟨full, Value.toJson_eq_text_iff.mpr whole, fun _ => rfl, by simp⟩

namespace Record

variable {record : Record} {attached : List (String × Value)} {name : String} {origin : Origin}

/-- Attaches values one after the other. -/
def attach (record : Record) (attached : List (String × Value)) : Record :=
  attached.foldl (fun record pair => record.set pair.1 pair.2) record

/-- A name that is free for values: it is no part of a record, nor what fills the arguments in. -/
structure IsFree (name : String) : Prop where
  plain : isReserved name = false
  method : name ≠ "getMessage"

/-! What one value changes. -/

theorem set_of_isFree (free : IsFree name) (record : Record) (value : Value) :
    record.set name value = { record with extras := Assoc.put record.extras name value } := by
  have apart {part : String} (known : part ∈ reservedNames) : name ≠ part := by
    rintro rfl
    have plain := free.plain
    simp [isReserved, known] at plain
  unfold set
  rw [if_neg (apart (by decide)), if_neg (apart (by decide)), if_neg (apart (by decide)),
    if_neg (apart (by decide)), if_neg (apart (by decide)), if_neg (apart (by decide)),
    if_neg free.method, if_neg (by simp [free.plain])]

theorem extras_set_of_not_isFree (taken : ¬ IsFree name) (record : Record) (value : Value) :
    (record.set name value).extras = record.extras := by
  unfold set
  repeat' split
  case isFalse.isFalse method reserved =>
    exact absurd ⟨by simpa using reserved, method⟩ taken
  all_goals rfl

theorem formatter_set (record : Record) (name : String) (value : Value) :
    (record.set name value).formatter =
      if name = "getMessage" then some value else record.formatter := by
  by_cases method : name = "getMessage"
  · subst method
    rfl
  · rw [if_neg method]
    unfold set
    repeat' split
    all_goals rfl

theorem get?_set (free : IsFree name) (record : Record) (other : String) (value : Value) :
    Assoc.get? (record.set other value).extras name =
      if other = name then some value else Assoc.get? record.extras name := by
  by_cases also : IsFree other
  · rw [set_of_isFree also, Assoc.get?_put]
  · rw [extras_set_of_not_isFree also, if_neg (fun same : other = name => also (same ▸ free))]

theorem nodup_set (distinct : (Assoc.keys record.extras).Nodup) (name : String) (value : Value) :
    (Assoc.keys (record.set name value).extras).Nodup := by
  by_cases free : IsFree name
  · rw [set_of_isFree free]
    exact Assoc.nodup_keys_put distinct
  · rwa [extras_set_of_not_isFree free]

/-! What all of them change. -/

/-- Of the values under one free name, the last one is attached. -/
theorem get?_attach (free : IsFree name) (attached : List (String × Value)) (record : Record) :
    Assoc.get? (record.attach attached).extras name =
      (Assoc.get? attached.reverse name).or (Assoc.get? record.extras name) := by
  induction attached generalizing record with
  | nil => rfl
  | cons pair rest ih =>
      obtain ⟨other, value⟩ := pair
      rw [List.reverse_cons, Assoc.get?_append]
      refine (ih (record.set other value)).trans ?_
      rw [get?_set free]
      by_cases same : other = name <;> simp [Assoc.get?, same]

theorem formatter_attach (attached : List (String × Value)) (record : Record) :
    (record.attach attached).formatter =
      (Assoc.get? attached.reverse "getMessage").or record.formatter := by
  induction attached generalizing record with
  | nil => rfl
  | cons pair rest ih =>
      obtain ⟨other, value⟩ := pair
      rw [List.reverse_cons, Assoc.get?_append]
      refine (ih (record.set other value)).trans ?_
      rw [formatter_set]
      by_cases same : other = "getMessage" <;> simp [Assoc.get?, same]

theorem nodup_attach (distinct : (Assoc.keys record.extras).Nodup)
    (attached : List (String × Value)) :
    (Assoc.keys (record.attach attached).extras).Nodup := by
  induction attached generalizing record with
  | nil => exact distinct
  | cons pair rest ih => exact ih (nodup_set distinct pair.1 pair.2)

/-- Under free names the values leave the other parts of a record as they are. -/
theorem attach_of_isFree (free : ∀ pair ∈ attached, IsFree pair.1) (record : Record) :
    record.attach attached =
      { record with
        extras := attached.foldl (fun extras pair => Assoc.put extras pair.1 pair.2)
          record.extras } := by
  induction attached generalizing record with
  | nil => rfl
  | cons pair rest ih =>
      rw [attach, List.foldl_cons, set_of_isFree (free pair List.mem_cons_self)]
      exact ih (fun other member => free other (List.mem_cons_of_mem _ member)) _

/-! The line. -/

theorem formatter_of_own {own : Assoc String (Except FormatError Value)}
    (told : record.own origin = .ok own) : record.formatter = none := by
  unfold Record.own at told
  simp only [bind_eq_ok] at told
  obtain ⟨_, _, _, _, _, _, message, filled, -⟩ := told
  rw [body] at filled
  cases formatter : record.formatter with
  | none => rfl
  | some value => simp [formatter] at filled

theorem mem_told {own : Assoc String (Except FormatError Value)}
    {member : String × Except FormatError Value} (found : member ∈ record.told own) :
    member ∈ own ∨ ∃ pair ∈ record.extras, member = (pair.1, .ok (clip pair.2)) :=
  Assoc.mem_of_mem_foldl_put (fun value => (.ok (clip value) : Except FormatError Value)) found

theorem get?_told (distinct : (Assoc.keys record.extras).Nodup)
    (own : Assoc String (Except FormatError Value)) (name : String) :
    Assoc.get? (record.told own) name =
      ((Assoc.get? record.extras name).map (fun value => .ok (clip value))).or
        (Assoc.get? own name) := by
  rw [← Assoc.get?_reverse distinct]
  exact Assoc.get?_foldl_put (fun value => .ok (clip value)) record.extras own name

theorem nodup_members {α β : Type} (time level logger message trace span : α) (root : Option α)
    (failure : Option β) (told : β → α) :
    (Assoc.keys (members time level logger message trace span root ++
      (failure.map (fun held => ("exc", told held))).toList)).Nodup := by
  cases root <;> cases failure <;> simp [members, Assoc.keys]

theorem nodup_own {own : Assoc String (Except FormatError Value)}
    (told : record.own origin = .ok own) : (Assoc.keys own).Nodup := by
  unfold Record.own at told
  simp only [bind_eq_ok, pure_eq_ok, Except.ok.injEq] at told
  obtain ⟨_, _, _, _, _, _, _, _, failure, _, rfl⟩ := told
  exact nodup_members ..

theorem nodup_told {own : Assoc String (Except FormatError Value)}
    (distinct : (Assoc.keys own).Nodup) : (Assoc.keys (record.told own)).Nodup :=
  Assoc.nodup_keys_foldl_put (fun value => (.ok (clip value) : Except FormatError Value))
    record.extras distinct

theorem memberToJson_eq_ok {member : String × Except FormatError Value} {made : String × Json} :
    memberToJson member = .ok made ↔
      ∃ value, member = (made.1, .ok value) ∧ value.toJson 2 = .ok made.2 := by
  obtain ⟨name, held⟩ := member
  obtain ⟨title, json⟩ := made
  simp only [memberToJson, bind_eq_ok, pure_eq_ok, Except.ok.injEq, Prod.mk.injEq]
  grind

theorem keys_of_mapM {all : Assoc String (Except FormatError Value)}
    {members : List (String × Json)} (found : all.mapM memberToJson = .ok members) :
    Assoc.keys members = Assoc.keys all := by
  induction all generalizing members with
  | nil =>
      cases found
      rfl
  | cons first rest ih =>
      obtain ⟨made, others, head, later, rfl⟩ := mapM_cons_eq_ok.mp found
      obtain ⟨value, rfl, -⟩ := memberToJson_eq_ok.mp head
      simpa [Assoc.keys] using ih later

/-- A value under a free name stands in the line, as `clip` leaves it. -/
theorem mem_written {members : List (String × Json)} {value : Value}
    (distinct : (Assoc.keys record.extras).Nodup) (written : record.written origin = .ok members)
    (known : Assoc.get? record.extras name = some value) :
    ∃ json, (clip value).toJson 2 = .ok json ∧ (name, json) ∈ members := by
  obtain ⟨own, told, made⟩ := bind_eq_ok.mp written
  have member : (name, .ok (clip value)) ∈ record.told own :=
    Assoc.mem_of_get? (by rw [get?_told distinct, known]; rfl)
  obtain ⟨⟨title, json⟩, looked⟩ := each_of_mapM made _ member
  obtain ⟨_, same, shown⟩ := memberToJson_eq_ok.mp looked
  cases same
  exact ⟨json, shown, (mem_of_mapM made).mpr ⟨_, member, looked⟩⟩

/-- The line of a record is an object in which one text stands under the name. -/
def Shows (record : Record) (origin : Origin) (name shown : String) : Prop :=
  ∃ members, record.written origin = .ok members ∧
    record.line origin = .ok (Json.object members).compact ∧
    (Assoc.keys members).Nodup ∧ (name, .text shown) ∈ members

theorem Shows.unique {shown other : String} (first : Shows record origin name shown)
    (second : Shows record origin name other) : shown = other := by
  obtain ⟨members, written, -, distinct, member⟩ := first
  obtain ⟨_, again, -, -, also⟩ := second
  cases written.symm.trans again
  have same := List.inj_on_of_nodup_map distinct member also rfl
  simpa using same

/-- A value that is written as one text stands in the line under its name. -/
theorem shows_of_line {line full : String} {value : Value} (bare : record.extras = [])
    (formatted : (record.attach attached).line origin = .ok line)
    (plain : isReserved name = false) (last : Assoc.get? attached.reverse name = some value)
    (whole : value.whole? = some full) :
    ∃ shown, (clip value).toJson 2 = .ok (.text shown) ∧
      Shows (record.attach attached) origin name shown := by
  obtain ⟨members, written, -⟩ := bind_eq_ok.mp formatted
  obtain ⟨own, told, made⟩ := bind_eq_ok.mp written
  have method : name ≠ "getMessage" := by
    rintro rfl
    have formatter := formatter_of_own told
    rw [formatter_attach, last] at formatter
    contradiction
  have known : Assoc.get? (record.attach attached).extras name = some value := by
    rw [get?_attach ⟨plain, method⟩, last]
    rfl
  have distinct : (Assoc.keys (record.attach attached).extras).Nodup :=
    nodup_attach (by rw [bare]; exact List.nodup_nil) attached
  obtain ⟨shown, clipped, -⟩ := toJson_clip whole
  obtain ⟨json, looked, member⟩ := mem_written distinct written known
  cases clipped.symm.trans looked
  refine ⟨shown, clipped, members, written, bind_eq_ok.mpr ⟨members, written, rfl⟩, ?_, member⟩
  rw [keys_of_mapM made]
  exact nodup_told (nodup_own told)

/-- Values that are written as texts, under free names, do not keep a line from being written. -/
theorem exists_line_attach {line : String} (bare : record.extras = [])
    (formatted : record.line origin = .ok line) (free : ∀ pair ∈ attached, IsFree pair.1)
    (whole : ∀ pair ∈ attached, ∃ full, pair.2.whole? = some full) :
    ∃ longer, (record.attach attached).line origin = .ok longer := by
  obtain ⟨members, written, -⟩ := bind_eq_ok.mp formatted
  obtain ⟨own, told, made⟩ := bind_eq_ok.mp written
  have same : (record.attach attached).own origin = .ok own := by
    rw [attach_of_isFree free]
    exact told
  have plain : record.told own = own := by rw [Record.told, bare]; rfl
  rw [plain] at made
  have each : ∀ member ∈ (record.attach attached).told own,
      ∃ made, memberToJson member = .ok made := by
    intro member found
    rcases mem_told found with own | ⟨pair, known, rfl⟩
    · exact each_of_mapM made member own
    · rw [attach_of_isFree free, bare] at known
      rcases Assoc.mem_of_mem_foldl_put id known with early | ⟨given, present, rfl⟩
      · contradiction
      · obtain ⟨full, whole⟩ := whole given present
        obtain ⟨shown, clipped, -⟩ := toJson_clip whole
        exact ⟨(given.1, .text shown), memberToJson_eq_ok.mpr ⟨_, rfl, clipped⟩⟩
  obtain ⟨longer, done⟩ := mapM_of_each each
  exact ⟨(Json.object longer).compact, bind_eq_ok.mpr
    ⟨longer, bind_eq_ok.mpr ⟨own, same, done⟩, rfl⟩⟩

end Record

open Record

variable {record : Record} {attached : List (String × Value)} {origin : Origin}
  {name line full : String} {value : Value}

/-- Every attached value that is written as one text stands in the line, whole where it has at most
`fieldLimit` characters. Only texts are cut: the line shows at most three characters more than this
just where the value is a text, or is no longer than that anyway. -/
theorem attached_bounded (bare : record.extras = [])
    (formatted : (record.attach attached).line origin = .ok line)
    (plain : isReserved name = false) (last : Assoc.get? attached.reverse name = some value)
    (whole : value.whole? = some full) :
    (∃ shown, Shows (record.attach attached) origin name shown) ∧
    ∀ shown, Shows (record.attach attached) origin name shown →
      (full.length ≤ fieldLimit → shown = full) ∧
      (shown.length ≤ fieldLimit + 3 ↔
        (∃ text, value = .text text) ∨ full.length ≤ fieldLimit + 3) := by
  obtain ⟨shown, clipped, shows⟩ := shows_of_line bare formatted plain last whole
  refine ⟨⟨shown, shows⟩, fun other also => ?_⟩
  obtain ⟨known, again, bounds⟩ := toJson_clip whole
  cases clipped.symm.trans again
  rwa [also.unique shows]

/-- A record that says "m", and of work without a root. -/
def brief : Record :=
  ⟨.text "looker", .text "INFO", .text "m", .several [], .integer 0, .value .null, none, []⟩

def rootless : Origin := ⟨.text "0", .text "0", .null⟩

theorem brief_line : ∃ line, brief.line rootless = .ok line := ⟨_, rfl⟩

/-- Letters in a row. -/
def letters (count : Nat) : String := String.ofList (List.replicate count 'x')

theorem length_letters (count : Nat) : (letters count).length = count := by
  rw [letters, String.length_ofList, List.length_replicate]

theorem free_path : IsFree "path" := ⟨by decide +kernel, by decide⟩

theorem free_query : IsFree "query" := ⟨by decide +kernel, by decide⟩

/-- A long query and a short path. -/
def searched : List (String × Value) :=
  [("query", .text (letters 2000)), ("path", .path (.ofString "src/a.c"))]

theorem searched_line : ∃ line, (brief.attach searched).line rootless = .ok line := by
  obtain ⟨line, formatted⟩ := brief_line
  refine exists_line_attach rfl formatted ?_ ?_
  · exact List.forall_mem_cons.mpr ⟨free_query, List.forall_mem_singleton.mpr free_path⟩
  · exact List.forall_mem_cons.mpr ⟨⟨_, rfl⟩, List.forall_mem_singleton.mpr ⟨"src/a.c", by decide⟩⟩

theorem searched_bounded :
    (∃ query, Shows (brief.attach searched) rootless "query" query ∧
      query.length ≤ fieldLimit + 3) ∧
    Shows (brief.attach searched) rootless "path" "src/a.c" := by
  obtain ⟨line, formatted⟩ := searched_line
  have path : Value.whole? (.path (.ofString "src/a.c")) = some "src/a.c" := by decide
  obtain ⟨⟨query, cut⟩, long⟩ := attached_bounded rfl formatted free_query.plain rfl rfl
  obtain ⟨⟨shown, whole⟩, short⟩ := attached_bounded rfl formatted free_path.plain rfl path
  rw [(short shown whole).1 (by decide)] at whole
  exact ⟨⟨query, cut, (long query cut).2.mpr (.inl ⟨_, rfl⟩)⟩, whole⟩

theorem points_letters (count : Nat) :
    (Text.RawText.ofString (letters count)).points = List.replicate count (Char.val 'x') := by
  rw [Text.RawText.ofString, letters, String.toList_ofList, List.map_replicate]

theorem isPart_letters (count : Nat) : Path.IsPart (.ofString (letters (count + 1))) where
  named := by
    have differs : Text.RawText.ofString (letters (count + 1)) ≠ Path.here := by
      intro same
      have points := congrArg (fun text => text.points.head?) same
      rw [points_letters, List.replicate_succ, List.head?_cons] at points
      exact absurd points (by decide)
    simp [Path.isName, Text.RawText.isEmpty, points_letters, List.replicate_succ, differs]
  plain := by
    rw [points_letters]
    exact fun member => absurd (List.mem_replicate.mp member).2 (by decide)

/-- A file whose name has four letters more than are kept of a text. -/
def longPath : Path := ⟨.relative, [.ofString (letters 504)]⟩

theorem whole?_longPath : Value.whole? (.path longPath) = some (letters 504) := by
  rw [Value.whole?, longPath, Path.text_singleton (isPart_letters 503),
    Text.RawText.toString?_ofString]

def opened : List (String × Value) := [("path", .path longPath)]

theorem opened_line : ∃ line, (brief.attach opened).line rootless = .ok line := by
  obtain ⟨line, formatted⟩ := brief_line
  refine exists_line_attach rfl formatted ?_ ?_
  · exact List.forall_mem_singleton.mpr free_path
  · exact List.forall_mem_singleton.mpr ⟨letters 504, whole?_longPath⟩

/-- Of a path all is shown. -/
theorem long_path_uncut :
    (∃ shown, Shows (brief.attach opened) rootless "path" shown) ∧
    ∀ shown, Shows (brief.attach opened) rootless "path" shown →
      fieldLimit + 3 < shown.length := by
  obtain ⟨line, formatted⟩ := opened_line
  obtain ⟨shown, written, shows⟩ :=
    shows_of_line rfl formatted free_path.plain rfl whole?_longPath
  refine ⟨⟨shown, shows⟩, fun other also => ?_⟩
  have whole : Value.whole? (.path longPath) = some shown := Value.toJson_eq_text_iff.mp written
  have all : shown = letters 504 := Option.some.inj (whole.symm.trans whole?_longPath)
  rw [also.unique shows, all, length_letters]
  decide

end TokenSearch.Logging
