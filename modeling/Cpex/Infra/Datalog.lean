import Mathlib.Data.List.Basic

/-!
# Datalog source

The text of a Datalog block, cut into statements. A statement ends at a semicolon outside a string
literal. In a literal `\"` stands for a quote and `\\` for a backslash, the first other quote ends
it, and every other character stands for itself.

* `lex`, `statements` — the tokens of a text, and the statements they make
* `Lexes` — what a piece of text is read as, whatever follows it
* `spell`, `lexes_literal` — a string spelled in a literal is read back
* `statements_flatMap` — statements written one after the other are read one by one
-/

namespace Cpex.Infra.Datalog

/-- A character outside the literals, or a literal. -/
inductive Token where
  | char (c : Char)
  | literal (value : String)
  deriving DecidableEq

/-- Where a reader stands, and what it has read of the literal it is in. -/
inductive Mode where
  | outside
  | literal (value : List Char)
  /-- After a backslash. -/
  | escape (value : List Char)

/-- The tokens of a text. A literal that does not end has none. -/
def lex : Mode → List Char → Option (List Token)
  | .outside, [] => some []
  | .outside, c :: cs =>
    if c = '"' then lex (.literal []) cs else (lex .outside cs).map (.char c :: ·)
  | .literal _, [] => none
  | .literal value, c :: cs =>
    if c = '"' then (lex .outside cs).map (.literal (String.ofList value) :: ·)
    else if c = '\\' then lex (.escape value) cs
    else lex (.literal (value ++ [c])) cs
  | .escape _, [] => none
  | .escape value, c :: cs =>
    if c = '"' ∨ c = '\\' then lex (.literal (value ++ [c])) cs
    else lex (.literal (value ++ ['\\', c])) cs

/-- Cuts tokens after each semicolon. The last statement has to end. -/
def cut (current : List Token) : List Token → Option (List (List Token))
  | [] => if current = [] then some [] else none
  | t :: ts =>
    if t = .char ';' then (cut [] ts).map (current :: ·) else cut (current ++ [t]) ts

/-- The statements of a source, in order. -/
def statements (source : List Char) : Option (List (List Token)) :=
  (lex .outside source).bind (cut [])

/-! ## Text outside the literals -/

/-- The text is read as these tokens, whatever follows it. -/
def Lexes (text : List Char) (tokens : List Token) : Prop :=
  ∀ rest, lex .outside (text ++ rest) = (lex .outside rest).map (tokens ++ ·)

theorem Lexes.append {text text' : List Char} {tokens tokens' : List Token}
    (h : Lexes text tokens) (h' : Lexes text' tokens') :
    Lexes (text ++ text') (tokens ++ tokens') := by
  intro rest
  rw [List.append_assoc, h, h', Option.map_map]
  congr 1
  funext ts
  exact (List.append_assoc _ _ _).symm

theorem lexes_plain : ∀ {text : List Char}, '"' ∉ text → Lexes text (text.map .char)
  | [], _, rest => by
    cases h : lex .outside rest with
    | none => rw [List.nil_append, h]; rfl
    | some ts => rw [List.nil_append, h]; rfl
  | c :: cs, hquote, rest => by
    have hc : c ≠ '"' := fun h => hquote (h ▸ List.mem_cons_self)
    have hcs : '"' ∉ cs := fun h => hquote (List.mem_cons_of_mem c h)
    rw [List.cons_append, lex, if_neg hc, lexes_plain hcs rest, Option.map_map]
    rfl

/-! ## Literals -/

/-- How a literal spells a character. -/
def glyph (c : Char) : List Char := if c = '"' ∨ c = '\\' then ['\\', c] else [c]

/-- How a literal spells a string. -/
def spell (s : List Char) : List Char := s.flatMap glyph

theorem lex_glyph (value : List Char) (c : Char) (rest : List Char) :
    lex (.literal value) (glyph c ++ rest) = lex (.literal (value ++ [c])) rest := by
  unfold glyph
  by_cases hc : c = '"' ∨ c = '\\'
  · rw [if_pos hc, List.cons_append, List.cons_append, List.nil_append, lex,
      if_neg (by decide), if_pos rfl, lex, if_pos hc]
  · rw [not_or] at hc
    rw [if_neg (not_or.mpr hc), List.cons_append, List.nil_append, lex, if_neg hc.1, if_neg hc.2]

theorem lex_spell : ∀ (s value rest : List Char),
    lex (.literal value) (spell s ++ rest) = lex (.literal (value ++ s)) rest
  | [], value, rest => by rw [List.append_nil]; rfl
  | c :: cs, value, rest => by
    have hspell : spell (c :: cs) = glyph c ++ spell cs := rfl
    rw [hspell, List.append_assoc, lex_glyph, lex_spell cs, List.append_assoc]
    rfl

/-- **A string spelled in a literal is read back.** Nothing of it is read outside the literal. -/
theorem lexes_literal (s : List Char) :
    Lexes ('"' :: (spell s ++ ['"'])) [.literal (String.ofList s)] := by
  intro rest
  rw [List.cons_append, lex, if_pos rfl, List.append_assoc, lex_spell, List.cons_append, lex,
    if_pos rfl]
  rfl

/-! ## Statements -/

theorem cut_statement : ∀ {tokens : List Token}, .char ';' ∉ tokens →
    ∀ current rest, cut current (tokens ++ .char ';' :: rest) =
      (cut [] rest).map ((current ++ tokens) :: ·)
  | [], _, current, rest => by
    rw [List.nil_append, cut, if_pos rfl, List.append_nil]
  | t :: ts, hend, current, rest => by
    have ht : t ≠ .char ';' := fun h => hend (h ▸ List.mem_cons_self)
    have hts : .char ';' ∉ ts := fun h => hend (List.mem_cons_of_mem t h)
    rw [List.cons_append, cut, if_neg ht, cut_statement hts, List.append_assoc]
    rfl

/-- A statement at the head of a source is read first. -/
theorem statements_append {text : List Char} {tokens : List Token} (h : Lexes text tokens)
    (hend : .char ';' ∉ tokens) (rest : List Char) :
    statements (text ++ ';' :: rest) = (statements rest).map (tokens :: ·) := by
  have hsemicolon : Lexes [';'] [.char ';'] := lexes_plain (by decide)
  have hlex := h.append hsemicolon rest
  rw [List.append_assoc, List.singleton_append] at hlex
  unfold statements
  rw [hlex]
  cases lex .outside rest with
  | none => rfl
  | some ts =>
    show cut [] ((tokens ++ [.char ';']) ++ ts) = (cut [] ts).map (tokens :: ·)
    rw [List.append_assoc, List.singleton_append, cut_statement hend]
    rfl

/-- **Statements written one after the other are read one by one.** -/
theorem statements_flatMap {α : Type*} {text : α → List Char} {tokens : α → List Token}
    (h : ∀ a, Lexes (text a) (tokens a)) (hend : ∀ a, .char ';' ∉ tokens a) :
    ∀ block : List α,
      statements (block.flatMap fun a => text a ++ [';']) = some (block.map tokens)
  | [] => rfl
  | a :: block => by
    rw [List.flatMap_cons, List.append_assoc, List.singleton_append,
      statements_append (h a) (hend a), statements_flatMap h hend block]
    rfl

end Cpex.Infra.Datalog
