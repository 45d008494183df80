import Mathlib.Data.List.Basic

/-!
# Text

The string operations of Rust's `str` that the host uses, on the characters of a string.
ASCII case is folded character by character, and white space is Unicode's `White_Space`.

* `First` — a text cut at the first occurrence of a needle
* `afterFirst_eq_some_iff` — `afterFirst` yields what stands after it
-/

namespace Cpex.Infra.Text

/-- `char::is_whitespace`: the Unicode property `White_Space`. -/
def isWhitespace (c : Char) : Bool :=
  let n := c.toNat
  (0x9 ≤ n && n ≤ 0xD) || n == 0x20 || n == 0x85 || n == 0xA0 || n == 0x1680 ||
    (0x2000 ≤ n && n ≤ 0x200A) || n == 0x2028 || n == 0x2029 || n == 0x202F || n == 0x205F ||
    n == 0x3000

/-- `str::trim_start`. -/
def trimStart (s : String) : String := String.ofList (s.toList.dropWhile isWhitespace)

/-- `str::trim`. -/
def trim (s : String) : String :=
  String.ofList (((s.toList.dropWhile isWhitespace).reverse.dropWhile isWhitespace).reverse)

/-- Whether the text is empty once trimmed. -/
def isBlank (s : String) : Bool := s.toList.all isWhitespace

/-- `str::to_ascii_lowercase`. -/
def toAsciiLowercase (s : String) : String := String.ofList (s.toList.map Char.toLower)

/-- `str::eq_ignore_ascii_case`. -/
def eqIgnoreAsciiCase (s t : String) : Bool :=
  s.toList.map Char.toLower == t.toList.map Char.toLower

/-- What stands after the first occurrence of `needle`, if there is one. -/
def afterFirst (needle : List Char) : List Char → Option (List Char)
  | [] => if needle.isEmpty then some [] else none
  | c :: cs =>
    if needle.isPrefixOf (c :: cs) then some ((c :: cs).drop needle.length)
    else afterFirst needle cs

/-- `str::replace` of a character. -/
def replaceChar (c : Char) (replacement s : String) : String :=
  String.ofList (s.toList.flatMap fun d => if d = c then replacement.toList else [d])

/-- `str::contains`. -/
def contains (s needle : String) : Bool := (afterFirst needle.toList s.toList).isSome

/-! ## The first occurrence -/

/-- `text` is `before`, `needle` and `after`, and `needle` stands nowhere earlier. -/
structure First {α : Type*} (needle before after text : List α) : Prop where
  split : text = before ++ needle ++ after
  least : ∀ b a, text = b ++ needle ++ a → before.length ≤ b.length

theorem First.unique {α : Type*} {needle before before' after after' text : List α}
    (h : First needle before after text) (h' : First needle before' after' text) :
    before = before' ∧ after = after' := by
  have hlen : before.length = before'.length :=
    Nat.le_antisymm (h.least _ _ h'.split) (h'.least _ _ h.split)
  have heq := h.split.symm.trans h'.split
  rw [List.append_assoc, List.append_assoc] at heq
  obtain ⟨hbefore, hrest⟩ := List.append_inj heq hlen
  exact ⟨hbefore, List.append_cancel_left hrest⟩

/-- Where the text does not start with the needle, its first occurrence is one in the rest. -/
theorem first_cons_iff {needle before after cs : List Char} {c : Char}
    (hnot : ¬ needle <+: c :: cs) :
    First needle before after (c :: cs) ↔
      ∃ before', before = c :: before' ∧ First needle before' after cs := by
  constructor
  · rintro ⟨hsplit, hleast⟩
    cases before with
    | nil => exact absurd ⟨after, hsplit.symm⟩ hnot
    | cons d before' =>
      rw [List.cons_append, List.cons_append, List.cons.injEq] at hsplit
      obtain ⟨rfl, hcs⟩ := hsplit
      refine ⟨before', rfl, hcs, fun b a hba => ?_⟩
      have hle := hleast (c :: b) a (by rw [hba]; rfl)
      simpa using hle
  · rintro ⟨before', rfl, hcs, hleast⟩
    refine ⟨by rw [hcs]; rfl, fun b a hba => ?_⟩
    cases b with
    | nil => exact absurd ⟨a, hba.symm⟩ hnot
    | cons d b =>
      rw [List.cons_append, List.cons_append, List.cons.injEq] at hba
      simpa using hleast b a hba.2

/-- `afterFirst` is what stands after the first occurrence. -/
theorem afterFirst_eq_some_iff {needle after : List Char} (hne : needle ≠ []) :
    ∀ text : List Char,
      afterFirst needle text = some after ↔ ∃ before, First needle before after text
  | [] => by
    have hnone : afterFirst needle [] = none := by
      rw [afterFirst, if_neg (by simpa using hne)]
    rw [hnone]
    constructor
    · intro h
      cases h
    · rintro ⟨before, hsplit, -⟩
      have hlen := congrArg List.length hsplit
      simp only [List.length_nil, List.length_append] at hlen
      exact absurd (List.eq_nil_of_length_eq_zero (by omega)) hne
  | c :: cs => by
    rw [afterFirst]
    by_cases hstart : needle <+: c :: cs
    · rw [if_pos (List.isPrefixOf_iff_prefix.mpr hstart), Option.some.injEq]
      obtain ⟨rest, hrest⟩ := hstart
      have hfirst : First needle [] rest (c :: cs) :=
        ⟨hrest.symm, fun _ _ _ => Nat.zero_le _⟩
      rw [← hrest, List.drop_left]
      constructor
      · rintro rfl
        exact ⟨[], hrest ▸ hfirst⟩
      · rintro ⟨before, h⟩
        exact (hfirst.unique (hrest ▸ h)).2
    · rw [if_neg fun h => hstart (List.isPrefixOf_iff_prefix.mp h)]
      rw [afterFirst_eq_some_iff hne cs]
      constructor
      · rintro ⟨before, h⟩
        exact ⟨c :: before, (first_cons_iff hstart).mpr ⟨before, rfl, h⟩⟩
      · rintro ⟨before, h⟩
        obtain ⟨before', -, h'⟩ := (first_cons_iff hstart).mp h
        exact ⟨before', h'⟩

/-- The first occurrence of a character has none of it before. -/
theorem first_singleton_iff {α : Type*} {c : α} {before after text : List α} :
    First [c] before after text ↔ text = before ++ c :: after ∧ c ∉ before := by
  constructor
  · rintro ⟨hsplit, hleast⟩
    rw [List.append_assoc] at hsplit
    refine ⟨hsplit, fun hmem => ?_⟩
    obtain ⟨b, a, rfl⟩ := List.append_of_mem hmem
    have hle := hleast b (a ++ [c] ++ after) (by rw [hsplit]; simp)
    simp only [List.length_append, List.length_cons] at hle
    omega
  · rintro ⟨hsplit, hnot⟩
    refine ⟨by rw [hsplit, List.append_assoc]; rfl, fun b a hba => ?_⟩
    by_contra hle
    have hlt : b.length < before.length := by omega
    rw [hsplit, List.append_assoc] at hba
    -- The earlier occurrence would stand inside `before`.
    have hget : before[b.length]? = some c := by
      have h := congrArg (·[b.length]?) hba
      simpa [List.getElem?_append_left hlt] using h
    exact hnot (List.mem_of_getElem? hget)

/-- A text is cut at the first occurrence of a character in one way. -/
theorem append_cons_inj {α : Type*} {c : α} {before before' after after' : List α}
    (hbefore : c ∉ before) (hbefore' : c ∉ before')
    (h : before ++ c :: after = before' ++ c :: after') : before = before' ∧ after = after' :=
  (first_singleton_iff.mpr ⟨rfl, hbefore⟩).unique (first_singleton_iff.mpr ⟨h, hbefore'⟩)

theorem afterFirst_char_eq_some_iff {c : Char} {after text : List Char} :
    afterFirst [c] text = some after ↔ ∃ before, text = before ++ c :: after ∧ c ∉ before := by
  rw [afterFirst_eq_some_iff (List.cons_ne_nil c []) text]
  exact exists_congr fun before => first_singleton_iff

end Cpex.Infra.Text
