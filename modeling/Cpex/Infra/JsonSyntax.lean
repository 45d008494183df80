import Mathlib.Data.List.Basic

/-!
# JSON as it is written

A JSON text keeps what the value forgets: the order of the members, the white space between
tokens, and which characters of a string are escaped and how. A `Document` is such a text as a
tree, so that every serialization of a value is one, and `text` is the characters it stands for.

* `Glyph`, `Literal` — a string literal, character by character
* `Document`, `Item`, `Member` — values, the elements of an array and the members of an object
* `Glyph.Plain` — a character that stands for itself
-/

namespace Cpex.Infra.JsonSyntax

/-! ## White space -/

/-- The white space JSON allows between tokens. -/
def isBlank (c : Char) : Bool := c == ' ' || c == '\t' || c == '\n' || c == '\r'

/-- A run of white space, empty or not. -/
structure Blanks where
  chars : List Char
  blank : ∀ c ∈ chars, isBlank c

def Blanks.none : Blanks := ⟨[], by simp⟩

def Blanks.space : Blanks := ⟨[' '], by simp [isBlank]⟩

/-! ## String literals -/

/-- A hexadecimal digit, in either case. -/
structure HexDigit where
  value : Fin 16
  upper : Bool

def HexDigit.char (d : HexDigit) : Char :=
  if d.value.val < 10 then Char.ofNat (0x30 + d.value.val)
  else if d.upper then Char.ofNat (0x41 + (d.value.val - 10))
  else Char.ofNat (0x61 + (d.value.val - 10))

/-- The four digits of a `\u` escape. -/
structure CodeUnit where
  a : HexDigit
  b : HexDigit
  c : HexDigit
  d : HexDigit

def CodeUnit.value (u : CodeUnit) : Nat :=
  ((u.a.value.val * 16 + u.b.value.val) * 16 + u.c.value.val) * 16 + u.d.value.val

def CodeUnit.text (u : CodeUnit) : List Char :=
  ['\\', 'u', u.a.char, u.b.char, u.c.char, u.d.char]

/-- The escapes of two characters. -/
inductive Short where
  | quote | backslash | slash | backspace | formFeed | lineFeed | carriageReturn | tab
  deriving DecidableEq

/-- The character after the backslash. -/
def Short.mark : Short → Char
  | .quote => '"'
  | .backslash => '\\'
  | .slash => '/'
  | .backspace => 'b'
  | .formFeed => 'f'
  | .lineFeed => 'n'
  | .carriageReturn => 'r'
  | .tab => 't'

def Short.value : Short → Char
  | .quote => '"'
  | .backslash => '\\'
  | .slash => '/'
  | .backspace => Char.ofNat 0x08
  | .formFeed => Char.ofNat 0x0C
  | .lineFeed => '\n'
  | .carriageReturn => '\r'
  | .tab => '\t'

/-- One character of a string, as the literal writes it. -/
inductive Glyph where
  | plain (c : Char) (unquoted : c ≠ '"') (unescaped : c ≠ '\\') (printable : 0x20 ≤ c.toNat)
  | short (e : Short)
  | code (u : CodeUnit) (scalar : u.value.isValidChar)
  /-- A surrogate pair. -/
  | pair (high low : CodeUnit) (isHigh : 0xD800 ≤ high.value ∧ high.value < 0xDC00)
      (isLow : 0xDC00 ≤ low.value ∧ low.value < 0xE000)

namespace Glyph

def text : Glyph → List Char
  | .plain c _ _ _ => [c]
  | .short e => ['\\', e.mark]
  | .code u _ => u.text
  | .pair high low _ _ => high.text ++ low.text

def value : Glyph → Char
  | .plain c _ _ _ => c
  | .short e => e.value
  | .code u _ => Char.ofNat u.value
  | .pair high low _ _ =>
    Char.ofNat (0x10000 + (high.value - 0xD800) * 0x400 + (low.value - 0xDC00))

/-- The character is written as itself. -/
def Plain : Glyph → Prop
  | .plain _ _ _ _ => True
  | _ => False

instance : DecidablePred Plain
  | .plain _ _ _ _ => .isTrue trivial
  | .short _ | .code _ _ | .pair _ _ _ _ => .isFalse id

theorem text_of_plain {g : Glyph} (h : g.Plain) : g.text = [g.value] := by
  cases g with
  | plain c _ _ _ => rfl
  | short _ | code _ _ | pair _ _ _ _ => exact h.elim

/-- Every glyph takes a character at least, and an escape more than one. -/
theorem length_text_pos (g : Glyph) : 1 ≤ g.text.length := by
  cases g with
  | plain c _ _ _ => exact Nat.le_refl 1
  | short _ | code _ _ | pair _ _ _ _ => simp [text, CodeUnit.text]

theorem one_lt_length_text {g : Glyph} (h : ¬ g.Plain) : 1 < g.text.length := by
  cases g with
  | plain c _ _ _ => exact absurd trivial h
  | short _ | code _ _ | pair _ _ _ _ => simp [text, CodeUnit.text]

end Glyph

theorem HexDigit.char_ne_quote (d : HexDigit) : d.char ≠ '"' := by
  have hall : ∀ (v : Fin 16) (up : Bool), HexDigit.char ⟨v, up⟩ ≠ '"' := by decide
  exact hall d.value d.upper

theorem CodeUnit.quote_notMem_text (u : CodeUnit) : '"' ∉ u.text := by
  simp [CodeUnit.text, (u.a.char_ne_quote).symm, (u.b.char_ne_quote).symm,
    (u.c.char_ne_quote).symm, (u.d.char_ne_quote).symm]

/-- A quote is written inside a literal for a quote only. -/
theorem Glyph.value_of_quote_mem {g : Glyph} (h : '"' ∈ g.text) : g.value = '"' := by
  cases g with
  | plain c hq _ _ =>
    rw [Glyph.text, List.mem_singleton] at h
    exact absurd h.symm hq
  | short e =>
    cases e with
    | quote => rfl
    | backslash | slash | backspace | formFeed | lineFeed | carriageReturn | tab =>
      simp [Glyph.text, Short.mark] at h
  | code u _ => exact absurd h u.quote_notMem_text
  | pair high low _ _ =>
    rw [Glyph.text, List.mem_append] at h
    exact absurd h (not_or.mpr ⟨high.quote_notMem_text, low.quote_notMem_text⟩)

/-- A string literal. -/
abbrev Literal := List Glyph

namespace Literal

/-- What stands between the quotes. -/
def raw (lit : Literal) : List Char := lit.flatMap Glyph.text

def text (lit : Literal) : List Char := '"' :: (lit.raw ++ ['"'])

/-- The characters of the string. -/
def value (lit : Literal) : List Char := lit.map Glyph.value

/-- No character is written as an escape. -/
def Plain (lit : Literal) : Prop := ∀ g ∈ lit, g.Plain

instance (lit : Literal) : Decidable lit.Plain := inferInstanceAs (Decidable (∀ g ∈ lit, g.Plain))

theorem raw_cons (g : Glyph) (lit : Literal) : raw (g :: lit) = g.text ++ raw lit := rfl

theorem raw_of_plain {lit : Literal} (h : lit.Plain) : lit.raw = lit.value := by
  induction lit with
  | nil => rfl
  | cons g lit ih =>
    have hg := Glyph.text_of_plain (h g List.mem_cons_self)
    have hrest := ih fun g' hg' => h g' (List.mem_cons_of_mem g hg')
    rw [raw_cons, hg, hrest]
    rfl

theorem quote_notMem_of_plain {lit : Literal} (h : lit.Plain) : '"' ∉ lit.raw := by
  intro hmem
  obtain ⟨g, hg, hquote⟩ := List.mem_flatMap.mp hmem
  have hplain := h g hg
  cases g with
  | plain c hc _ _ => exact hc (List.mem_singleton.mp hquote).symm
  | short _ | code _ _ | pair _ _ _ _ => exact hplain

theorem length_value_le (lit : Literal) : lit.value.length ≤ lit.raw.length := by
  induction lit with
  | nil => exact Nat.le_refl 0
  | cons g lit ih =>
    have hg := g.length_text_pos
    rw [raw_cons, List.length_append]
    simp only [value, List.map_cons, List.length_cons, List.length_map] at ih ⊢
    omega

/-- An escape makes the text longer than the string. -/
theorem length_value_lt {lit : Literal} (h : ¬ lit.Plain) : lit.value.length < lit.raw.length := by
  induction lit with
  | nil => exact absurd (fun g hg => by cases hg) h
  | cons g lit ih =>
    rw [raw_cons, List.length_append]
    by_cases hg : g.Plain
    · have hrest : ¬ Plain lit := by
        intro hrest
        refine h fun g' hg' => ?_
        rcases List.mem_cons.mp hg' with rfl | hmem
        · exact hg
        · exact hrest g' hmem
      have hlt := ih hrest
      have hpos := g.length_text_pos
      simp only [value, List.map_cons, List.length_cons, List.length_map] at hlt ⊢
      omega
    · have hlt := Glyph.one_lt_length_text hg
      have hle := length_value_le lit
      simp only [value, List.map_cons, List.length_cons, List.length_map] at hle ⊢
      omega

/-- A quote between the quotes of a literal is a quote of the string. -/
theorem quote_mem_value {lit : Literal} (h : '"' ∈ lit.raw) : '"' ∈ lit.value := by
  obtain ⟨g, hg, hmem⟩ := List.mem_flatMap.mp h
  exact List.mem_map.mpr ⟨g, hg, Glyph.value_of_quote_mem hmem⟩

end Literal

/-! ## Values -/

/-- A number as it is written: no leading zero, at least a digit after a point or an exponent. -/
structure Numeral where
  negative : Bool
  whole : Nat
  fraction : Option (Fin 10 × List (Fin 10))
  /-- The letter and the sign of the exponent, and its digits. -/
  exponent : Option (Bool × Option Bool × Fin 10 × List (Fin 10))

namespace Numeral

def digit (d : Fin 10) : Char := Char.ofNat (0x30 + d.val)

def fractionText : Option (Fin 10 × List (Fin 10)) → List Char
  | none => []
  | some (d, ds) => '.' :: (d :: ds).map digit

def exponentText : Option (Bool × Option Bool × Fin 10 × List (Fin 10)) → List Char
  | none => []
  | some (upper, sign, d, ds) =>
    let letter := if upper then 'E' else 'e'
    let sign := match sign with
      | none => []
      | some true => ['-']
      | some false => ['+']
    letter :: (sign ++ (d :: ds).map digit)

def text (n : Numeral) : List Char :=
  (if n.negative then ['-'] else []) ++ Nat.toDigits 10 n.whole ++ fractionText n.fraction ++
    exponentText n.exponent

end Numeral

mutual

/-- A value as it is written. The blanks of an array or an object stand before its last bracket. -/
inductive Document where
  | null
  | bool (b : Bool)
  | number (n : Numeral)
  | string (lit : Literal)
  | array (items : List Item) (blanks : Blanks)
  | object (members : List Member) (blanks : Blanks)

inductive Item where
  | mk (before : Blanks) (value : Document) (after : Blanks)

inductive Member where
  | mk (before : Blanks) (key : Literal) (afterKey beforeValue : Blanks) (value : Document)
      (after : Blanks)

end

/-- Texts with commas between them. -/
def joined : List (List Char) → List Char
  | [] => []
  | [t] => t
  | t :: ts => t ++ ',' :: joined ts

mutual

def Document.text : Document → List Char
  | .null => "null".toList
  | .bool true => "true".toList
  | .bool false => "false".toList
  | .number n => n.text
  | .string lit => lit.text
  | .array items blanks => '[' :: (joined (itemTexts items) ++ blanks.chars ++ [']'])
  | .object members blanks => '\x7b' :: (joined (memberTexts members) ++ blanks.chars ++ ['\x7d'])

def Item.text : Item → List Char
  | .mk before value after => before.chars ++ value.text ++ after.chars

def Member.text : Member → List Char
  | .mk before key afterKey beforeValue value after =>
    before.chars ++ key.text ++ afterKey.chars ++ ':' :: (beforeValue.chars ++ value.text) ++
      after.chars

def itemTexts : List Item → List (List Char)
  | [] => []
  | i :: is => i.text :: itemTexts is

def memberTexts : List Member → List (List Char)
  | [] => []
  | m :: ms => m.text :: memberTexts ms

end

@[simp] theorem Document.text_string (lit : Literal) : (Document.string lit).text = lit.text := rfl

@[simp] theorem Document.text_object (members : List Member) (blanks : Blanks) :
    (Document.object members blanks).text =
      '\x7b' :: (joined (memberTexts members) ++ blanks.chars ++ ['\x7d']) := rfl

@[simp] theorem Member.text_mk (before : Blanks) (key : Literal) (afterKey beforeValue : Blanks)
    (value : Document) (after : Blanks) :
    (Member.mk before key afterKey beforeValue value after).text =
      before.chars ++ key.text ++ afterKey.chars ++ ':' :: (beforeValue.chars ++ value.text) ++
        after.chars := rfl

@[simp] theorem itemTexts_cons (i : Item) (is : List Item) :
    itemTexts (i :: is) = i.text :: itemTexts is := rfl

@[simp] theorem memberTexts_cons (m : Member) (ms : List Member) :
    memberTexts (m :: ms) = m.text :: memberTexts ms := rfl

mutual

/-- The string literals of a value, keys included. -/
def Document.literals : Document → List Literal
  | .null | .bool _ | .number _ => []
  | .string lit => [lit]
  | .array items _ => itemLiterals items
  | .object members _ => memberLiterals members

def Item.literals : Item → List Literal
  | .mk _ value _ => value.literals

def Member.literals : Member → List Literal
  | .mk _ key _ _ value _ => key :: value.literals

def itemLiterals : List Item → List Literal
  | [] => []
  | i :: is => i.literals ++ itemLiterals is

def memberLiterals : List Member → List Literal
  | [] => []
  | m :: ms => m.literals ++ memberLiterals ms

end

@[simp] theorem Document.literals_string (lit : Literal) :
    (Document.string lit).literals = [lit] := rfl

@[simp] theorem Member.literals_mk (before : Blanks) (key : Literal)
    (afterKey beforeValue : Blanks) (value : Document) (after : Blanks) :
    (Member.mk before key afterKey beforeValue value after).literals =
      key :: value.literals := rfl

@[simp] theorem itemLiterals_cons (i : Item) (is : List Item) :
    itemLiterals (i :: is) = i.literals ++ itemLiterals is := rfl

@[simp] theorem memberLiterals_cons (m : Member) (ms : List Member) :
    memberLiterals (m :: ms) = m.literals ++ memberLiterals ms := rfl

def Member.key : Member → Literal
  | .mk _ key _ _ _ _ => key

theorem memberTexts_eq_map : ∀ ms : List Member, memberTexts ms = ms.map Member.text
  | [] => rfl
  | m :: ms => by rw [memberTexts, List.map_cons, memberTexts_eq_map ms]

theorem joined_cons_of_ne_nil (t : List Char) {ts : List (List Char)} (h : ts ≠ []) :
    joined (t :: ts) = t ++ ',' :: joined ts := by
  cases ts with
  | nil => exact absurd rfl h
  | cons _ _ => rfl

/-- The text up to one member of a list and from it on. -/
theorem joined_around (t : List Char) (after : List (List Char)) : ∀ before : List (List Char),
    joined (before ++ t :: after) =
      before.flatMap (· ++ [',']) ++ t ++ after.flatMap (',' :: ·)
  | [] => by
    induction after generalizing t with
    | nil => simp [joined]
    | cons t' after ih => simpa [joined] using ih t'
  | t' :: before => by
    rw [List.cons_append, joined_cons_of_ne_nil t' (by simp), joined_around t after before]
    simp

end Cpex.Infra.JsonSyntax
