import Mathlib.Data.List.TakeWhile
import TokenSearch.Proofs.Text.Utf8
import TokenSearch.Text.RawText

namespace TokenSearch.Text.RawText

/-! Text from outside that is a string: none of its points is a surrogate, so no character is lost. -/

theorem isSurrogate_val (c : Char) : isSurrogate c.val = false := by
  have valid := c.valid
  simp only [UInt32.isValidChar, Nat.isValidChar] at valid
  simp only [isSurrogate, Bool.and_eq_false_iff, decide_eq_false_iff_not, UInt32.le_iff_toNat_le]
  have low : (0xD800 : UInt32).toNat = 0xD800 := rfl
  have high : (0xDFFF : UInt32).toNat = 0xDFFF := rfl
  omega

theorem charOf_val (c : Char) : charOf c.val = c := by
  rw [charOf, isSurrogate_val]
  exact Char.ofNat_toNat c

theorem toStringLossy_ofString (text : String) : (ofString text).toStringLossy = text := by
  have kept : text.toList.map (fun c => charOf c.val) = text.toList := by
    simp only [charOf_val, List.map_id']
  rw [toStringLossy, ofString, List.map_map]
  change String.ofList (text.toList.map (fun c => charOf c.val)) = text
  rw [kept, String.ofList_toList]

/-- A text is a string if all its points are characters. -/
theorem exists_ofString_iff {source : RawText} :
    (∃ text, source = ofString text) ↔ ∀ point ∈ source.points, ∃ c : Char, c.val = point := by
  constructor
  · rintro ⟨text, rfl⟩ point member
    obtain ⟨c, _, rfl⟩ := List.mem_map.mp member
    exact ⟨c, rfl⟩
  · intro each
    have kept : (source.points.map charOf).map Char.val = source.points := by
      rw [List.map_map]
      refine (List.map_congr_left (fun point member => ?_)).trans (List.map_id _)
      obtain ⟨c, rfl⟩ := each point member
      exact congrArg Char.val (charOf_val c)
    refine ⟨source.toStringLossy, ?_⟩
    rw [ofString, toStringLossy, String.toList_ofList, kept]

/-- Strings have the order of their texts. -/
theorem lt_of_points_lt {first second : String}
    (less : (ofString first).points < (ofString second).points) : first < second := by
  rcases Std.lt_trichotomy first second with below | same | above
  · exact below
  · rw [same] at less
    exact absurd less (List.lt_irrefl _)
  · have greater : (ofString second).points < (ofString first).points :=
      List.map_lt (fun _ _ => Char.lt_def.mp) (String.lt_iff.mp above)
    exact absurd (List.lt_trans less greater) (List.lt_irrefl _)

theorem hasSurrogate_ofString (text : String) : (ofString text).hasSurrogate = false := by
  simp [hasSurrogate, ofString, isSurrogate_val]

theorem toString?_ofString (text : String) : (ofString text).toString? = some text := by
  have kept : text.toList.map (fun c => Char.ofNat c.val.toNat) = text.toList :=
    (List.map_congr_left (fun c _ => Char.ofNat_toNat c)).trans (List.map_id _)
  rw [toString?, hasSurrogate_ofString, ofString, List.map_map]
  change some (String.ofList (text.toList.map (fun c => Char.ofNat c.val.toNat))) = some text
  rw [kept, String.ofList_toList]

theorem sound_ofString (text : String) : (ofString text).sound = text.toList := by
  have all : (text.toList.map Char.val).takeWhile (fun point => !isSurrogate point) =
      text.toList.map Char.val := by
    rw [List.takeWhile_eq_self_iff]
    intro point member
    obtain ⟨c, _, rfl⟩ := List.mem_map.mp member
    simp [isSurrogate_val]
  rw [sound, ofString, all, List.map_map]
  exact (List.map_congr_left (fun c _ => Char.ofNat_toNat c)).trans (List.map_id _)

theorem hasSurrogate_append (text : String) {point : UInt32} (surrogate : isSurrogate point = true)
    (more : List UInt32) : (ofString text ++ ⟨point :: more⟩ : RawText).hasSurrogate = true := by
  change (((ofString text).points ++ point :: more).any isSurrogate) = true
  simp [surrogate]

/-- What stands before the first surrogate is the string in front of it. -/
theorem sound_append (text : String) {point : UInt32} (surrogate : isSurrogate point = true)
    (more : List UInt32) : (ofString text ++ ⟨point :: more⟩ : RawText).sound = text.toList := by
  have front : ∀ p ∈ (ofString text).points, (!isSurrogate p) = true := by
    intro p member
    obtain ⟨c, _, rfl⟩ := List.mem_map.mp member
    simp [isSurrogate_val]
  have ended : (point :: more).takeWhile (fun p => !isSurrogate p) = [] := by
    simp [surrogate]
  change (((ofString text).points ++ point :: more).takeWhile _).map _ = _
  rw [List.takeWhile_append_of_pos front, ended, List.append_nil, ← sound_ofString text, sound,
    List.takeWhile_eq_self_iff.mpr front]

theorem exists_ofString {points : List UInt32} (valid : ∀ p ∈ points, p.toNat < 0x110000)
    (plain : ∀ p ∈ points, isSurrogate p = false) : ∃ text, (⟨points⟩ : RawText) = ofString text := by
  refine ⟨String.ofList (points.map (fun p => Char.ofNat p.toNat)), ?_⟩
  have same : (points.map (fun p => Char.ofNat p.toNat)).map Char.val = points := by
    rw [List.map_map]
    refine (List.map_congr_left (fun p member => ?_)).trans (List.map_id points)
    have below := valid p member
    have outside := plain p member
    simp only [isSurrogate, Bool.and_eq_false_iff, decide_eq_false_iff_not,
      UInt32.le_iff_toNat_le] at outside
    have low : (0xD800 : UInt32).toNat = 0xD800 := rfl
    have high : (0xDFFF : UInt32).toNat = 0xDFFF := rfl
    apply UInt32.toNat.inj
    exact Utf8.val_ofNat (by simp only [Nat.isValidChar]; omega)
  rw [ofString, String.toList_ofList, same]

/-- Code points are a string up to their end or up to the first surrogate among them. -/
theorem ofString_or_surrogate (source : RawText)
    (valid : ∀ point ∈ source.points, point.toNat < 0x110000) :
    (∃ text, source = ofString text) ∨ ∃ text point more, isSurrogate point = true ∧
      source = ofString text ++ (⟨point :: more⟩ : RawText) := by
  have whole := List.takeWhile_append_dropWhile (p := fun p => !isSurrogate p) (l := source.points)
  have inside : ∀ p ∈ source.points.takeWhile (fun p => !isSurrogate p),
      p.toNat < 0x110000 := by
    intro p member
    exact valid p (List.takeWhile_prefix _ |>.subset member)
  have plain : ∀ p ∈ source.points.takeWhile (fun p => !isSurrogate p),
      isSurrogate p = false := by
    intro p member
    simpa using List.mem_takeWhile_imp member
  obtain ⟨text, front⟩ := exists_ofString inside plain
  cases behind : source.points.dropWhile (fun p => !isSurrogate p) with
  | nil =>
      rw [behind, List.append_nil] at whole
      exact .inl ⟨text, by rw [← front, whole]⟩
  | cons point more =>
      have surrogate : isSurrogate point = true := by
        simpa [behind] using List.head?_dropWhile_not (fun p => !isSurrogate p) source.points
      refine .inr ⟨text, point, more, surrogate, ?_⟩
      rw [← front]
      change source = ⟨source.points.takeWhile (fun p => !isSurrogate p) ++ point :: more⟩
      rw [← behind, whole]

end TokenSearch.Text.RawText
