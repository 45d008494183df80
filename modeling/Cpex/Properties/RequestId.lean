import Cpex.Infra.JsonSyntax
import Cpex.Properties.Framing

/-!
# Whose id a cut frame yields

`request_id_from_prefix` reads a JSON text that was cut, by scanning for the characters of the
key. In the text of a response those may stand elsewhere first: as a string value, as a key of a
nested object, or at the end of a string that holds an escaped quote. And the scan takes the
characters of the value as they are written.

* `ResponseText` — any serialization of a response object that has a `request_id`
* `Cut` — what lossy decoding makes of the first bytes of a text
* `cut_of_oversized` — the reader keeps such a cut
* `Quoted` — what a scan that starts here finds between quotes
* `Attributed` — the condition: the first occurrence is the key and its value is written plainly,
  or what it leads to does no harm
* `requestIdFromPrefix_iff` — and it is exact
* `attributed_of_early` — it holds of an id written plainly before any mention of its key
-/

namespace Cpex.Host.Worker

open Cpex.Infra Cpex.Infra.JsonSyntax

/-! ## Responses and cuts -/

/-- The key of the id. -/
def requestIdName : List Char := "request_id".toList

/-- The key with its quotes, as the scan looks for it. -/
def requestIdKey : List Char := "\"request_id\"".toList

theorem requestIdKey_eq : requestIdKey = '"' :: (requestIdName ++ ['"']) := by decide

/--
A response object as it is written: the member of the id among the others, in any order. No other
member of the object has that key.
-/
structure ResponseText where
  lead : Blanks
  before : List Member
  beforeKey : Blanks
  key : Literal
  isKey : key.value = requestIdName
  afterKey : Blanks
  beforeId : Blanks
  id : Literal
  afterId : Blanks
  after : List Member
  only : ∀ m ∈ before ++ after, m.key.value ≠ requestIdName
  blanks : Blanks
  trail : Blanks

namespace ResponseText

variable (r : ResponseText)

def member : Member := .mk r.beforeKey r.key r.afterKey r.beforeId (.string r.id) r.afterId

def document : Document := .object (r.before ++ r.member :: r.after) r.blanks

def text : List Char := r.lead.chars ++ r.document.text ++ r.trail.chars

/-- The top-level id. -/
def requestId : String := String.ofList r.id.value

/-- The text up to the top-level key. -/
def upToKey : List Char :=
  r.lead.chars ++ '\x7b' :: (r.before.flatMap fun m => m.text ++ [',']) ++ r.beforeKey.chars

/-- The text up to the characters of the id. -/
def upToId : List Char :=
  r.upToKey ++ r.key.text ++ r.afterKey.chars ++ ':' :: (r.beforeId.chars ++ ['"'])

/-- The text after the closing quote of the id. -/
def rest : List Char :=
  r.afterId.chars ++ (r.after.flatMap fun m => ',' :: m.text) ++ r.blanks.chars ++ ['\x7d'] ++
    r.trail.chars

/-- The text around the key and the id. -/
theorem text_eq : r.text = r.upToKey ++ (r.key.text ++ (r.afterKey.chars ++
    ':' :: (r.beforeId.chars ++ '"' :: (r.id.raw ++ '"' :: r.rest)))) := by
  have hmembers : joined (memberTexts (r.before ++ r.member :: r.after)) =
      (r.before.flatMap fun m => m.text ++ [',']) ++ r.member.text ++
        (r.after.flatMap fun m => ',' :: m.text) := by
    rw [memberTexts_eq_map, List.map_append, List.map_cons, joined_around, List.flatMap_map,
      List.flatMap_map]
  rw [text, document, Document.text_object, hmembers]
  simp only [member, Member.text_mk, Document.text_string, upToKey, rest, Literal.text,
    List.append_assoc, List.cons_append, List.nil_append]

end ResponseText

open Utf8 (replacement)

/-- The first characters of a text, and replacements for the bytes of one that was cut. -/
def Cut (text kept : List Char) : Prop :=
  ∃ n k, kept = text.take n ++ List.replicate k replacement

variable {t k a r : List Char} {c : Char}

/-- What the reader keeps of a line over the limit is a cut of its text. -/
theorem cut_of_oversized {limit scanned : Nat} {kept : String}
    (h : bounded limit (Utf8.encode t) = .oversized kept scanned) : Cut t kept.toList := by
  unfold bounded at h
  split at h
  · cases h
  · obtain ⟨rfl, -⟩ := BoundedLine.oversized.inj h
    obtain ⟨n, htrim⟩ : ∃ n, trimReturn ((Utf8.encode t).take limit) = (Utf8.encode t).take n := by
      unfold trimReturn
      split
      · rw [List.dropLast_eq_take, List.take_take]
        exact ⟨_, rfl⟩
      · exact ⟨limit, rfl⟩
    obtain ⟨m, k, hlossy⟩ := Utf8.fromUtf8Lossy_take_encode t n
    exact ⟨m, k, by rw [lineText, String.toList_ofList, htrim, hlossy]⟩

theorem Cut.notMem (h : Cut t k) (hc : c ∉ t) (hmark : c ≠ replacement) : c ∉ k := by
  obtain ⟨n, m, rfl⟩ := h
  intro hmem
  rcases List.mem_append.mp hmem with htake | hrep
  · exact hc (List.mem_of_mem_take htake)
  · exact hmark (List.eq_of_mem_replicate hrep)

/-- The cut stands before the first `c`, or behind it. -/
theorem Cut.split (h : Cut (a ++ c :: r) k) : Cut a k ∨ ∃ k', k = a ++ c :: k' ∧ Cut r k' := by
  obtain ⟨n, m, rfl⟩ := h
  by_cases hn : n ≤ a.length
  · left
    refine ⟨n, m, ?_⟩
    rw [List.take_append_of_le_length hn]
  · right
    refine ⟨r.take (n - a.length - 1) ++ List.replicate m replacement, ?_, _, m, rfl⟩
    obtain ⟨j, rfl⟩ : ∃ j, n = a.length + (j + 1) := ⟨n - a.length - 1, by omega⟩
    rw [List.take_length_add_append, List.take_succ_cons]
    simp

/-- What follows a part of the text that was kept whole. -/
theorem Cut.append (h : Cut (a ++ r) (a ++ k)) : Cut r k := by
  obtain ⟨n, m, heq⟩ := h
  by_cases hn : a.length ≤ n
  · obtain ⟨j, rfl⟩ := Nat.exists_eq_add_of_le hn
    rw [List.take_length_add_append, List.append_assoc] at heq
    exact ⟨j, m, List.append_cancel_left heq⟩
  · -- Only replacements follow.
    rw [List.take_append_of_le_length (by omega)] at heq
    have hdrop := congrArg (List.drop a.length) heq
    rw [List.drop_left, List.drop_append, List.drop_eq_nil_of_le (List.length_take_le' n a),
      List.nil_append, List.drop_replicate] at hdrop
    exact ⟨0, m - (a.length - (a.take n).length), by rw [List.take_zero, List.nil_append, hdrop]⟩

/-! ## The scan -/

/-- Behind the first colon, `x` stands between the first two quotes. -/
def Quoted (v x : List Char) : Prop :=
  ∃ a b rest, v = a ++ ':' :: (b ++ '"' :: (x ++ '"' :: rest)) ∧ ':' ∉ a ∧ '"' ∉ b ∧ '"' ∉ x

theorem untilQuote_eq_some_iff {x : List Char} : ∀ {v : List Char},
    untilQuote v = some x ↔ ∃ rest, v = x ++ '"' :: rest ∧ '"' ∉ x
  | [] => by simp [untilQuote]
  | c :: v => by
    by_cases hc : c = '"'
    · subst hc
      rw [untilQuote, Option.some.injEq]
      constructor
      · rintro rfl
        exact ⟨v, rfl, by simp⟩
      · rintro ⟨rest, heq, hx⟩
        cases x with
        | nil => rfl
        | cons d x =>
          rw [List.cons_append, List.cons.injEq] at heq
          exact absurd (heq.1 ▸ List.mem_cons_self) hx
    · rw [untilQuote.eq_3 c v (by intro h; exact absurd h hc), Option.map_eq_some_iff]
      constructor
      · rintro ⟨x', hx', rfl⟩
        obtain ⟨rest, rfl, hnot⟩ := untilQuote_eq_some_iff.mp hx'
        exact ⟨rest, rfl, by simp [hnot, Ne.symm hc]⟩
      · rintro ⟨rest, heq, hx⟩
        cases x with
        | nil =>
          rw [List.nil_append, List.cons.injEq] at heq
          exact absurd heq.1 hc
        | cons d x =>
          rw [List.cons_append, List.cons.injEq] at heq
          obtain ⟨rfl, rfl⟩ := heq
          exact ⟨x, untilQuote_eq_some_iff.mpr ⟨rest, rfl, fun h => hx (by simp [h])⟩, rfl⟩

/-- The scan yields what is quoted behind the first occurrence of the key. -/
theorem requestIdFromPrefix_eq_some_iff {kept id : String} :
    requestIdFromPrefix kept = some id ↔
      ∃ u v, Text.First requestIdKey u v kept.toList ∧ Quoted v id.toList := by
  have hne : requestIdKey ≠ [] := by decide
  simp only [requestIdFromPrefix, Option.bind_eq_bind, Option.bind_eq_some_iff, Option.pure_def,
    Option.some.injEq]
  constructor
  · rintro ⟨v, hv, w, hw, y, hy, x, hx, rfl⟩
    obtain ⟨u, hfirst⟩ := (Text.afterFirst_eq_some_iff hne _).mp hv
    obtain ⟨a, rfl, ha⟩ := Text.afterFirst_char_eq_some_iff.mp hw
    obtain ⟨b, rfl, hb⟩ := Text.afterFirst_char_eq_some_iff.mp hy
    obtain ⟨rest, rfl, hnot⟩ := untilQuote_eq_some_iff.mp hx
    refine ⟨u, _, hfirst, a, b, rest, ?_, ha, hb, ?_⟩
    · rw [String.toList_ofList]
    · rwa [String.toList_ofList]
  · rintro ⟨u, v, hfirst, a, b, rest, rfl, ha, hb, hx⟩
    refine ⟨_, (Text.afterFirst_eq_some_iff hne _).mpr ⟨u, hfirst⟩,
      _, Text.afterFirst_char_eq_some_iff.mpr ⟨a, rfl, ha⟩,
      _, Text.afterFirst_char_eq_some_iff.mpr ⟨b, rfl, hb⟩,
      id.toList, untilQuote_eq_some_iff.mpr ⟨rest, rfl, hx⟩, String.ofList_toList⟩

/-! ## The top-level key -/

/-- The name of the key holds no quote, so the characters between the quotes of its literal do not
either, however it is written. -/
theorem quote_notMem_key (r : ResponseText) : '"' ∉ r.key.raw := by
  intro hmem
  have hvalue := Literal.quote_mem_value hmem
  rw [r.isKey] at hvalue
  exact absurd hvalue (by decide)

/-- Where the first occurrence is the top-level key, the rest of the response follows, cut. -/
theorem cut_of_ownKey {r : ResponseText} {kept v : List Char} (hcut : Cut r.text kept)
    (hkept : kept = r.upToKey ++ requestIdKey ++ v) :
    r.key.text = requestIdKey ∧
      Cut (r.afterKey.chars ++
        ':' :: (r.beforeId.chars ++ '"' :: (r.id.raw ++ '"' :: r.rest))) v := by
  rw [r.text_eq, hkept, List.append_assoc] at hcut
  have hkey : Cut (r.key.raw ++ '"' :: (r.afterKey.chars ++
      ':' :: (r.beforeId.chars ++ '"' :: (r.id.raw ++ '"' :: r.rest))))
      (requestIdName ++ '"' :: v) := by
    have happend := hcut.append
    simp only [Literal.text, List.cons_append, List.append_assoc, List.nil_append] at happend
    exact Cut.append (a := ['"']) happend
  rcases hkey.split with hbefore | ⟨k', heq, hrest⟩
  · have hnot := hbefore.notMem (quote_notMem_key r) (by decide)
    exact absurd (List.mem_append_right _ List.mem_cons_self) hnot
  · have hplain : '"' ∉ requestIdName := by decide
    obtain ⟨hname, hv⟩ := Text.append_cons_inj hplain (quote_notMem_key r) heq
    refine ⟨?_, hv ▸ hrest⟩
    rw [Literal.text, ← hname]
    rfl

/-- Blanks hold neither a colon nor a quote. -/
theorem notMem_blanks (b : Blanks) {c : Char} (hc : isBlank c = false) : c ∉ b.chars := by
  intro hmem
  have hblank := b.blank c hmem
  rw [hc] at hblank
  cases hblank

/-- Behind the top-level key, what is quoted is what was kept of the literal up to a quote. -/
theorem quoted_ownKey {r : ResponseText} {kept v x : List Char} (hcut : Cut r.text kept)
    (hkept : kept = r.upToKey ++ requestIdKey ++ v) :
    Quoted v x ↔ ∃ y rest, kept = r.upToId ++ y ∧ Cut (r.id.raw ++ '"' :: r.rest) y ∧
      y = x ++ '"' :: rest ∧ '"' ∉ x := by
  obtain ⟨hkey, hv⟩ := cut_of_ownKey hcut hkept
  have hcolon : ':' ∉ r.afterKey.chars := notMem_blanks _ rfl
  have hquote : '"' ∉ r.beforeId.chars := notMem_blanks _ rfl
  have hup : ∀ y, v = r.afterKey.chars ++ ':' :: (r.beforeId.chars ++ '"' :: y) ↔
      kept = r.upToId ++ y := by
    intro y
    rw [hkept, ResponseText.upToId, hkey]
    simp only [List.append_assoc, List.cons_append, List.nil_append, List.append_cancel_left_eq]
  constructor
  · rintro ⟨a, b, rest, rfl, ha, hb, hx⟩
    -- The cut leaves the colon and the quote that the scan found.
    rcases hv.split with hbefore | ⟨w, heq, hw⟩
    · exact absurd (by simp) (hbefore.notMem hcolon (by decide))
    · obtain ⟨rfl, rfl⟩ := Text.append_cons_inj ha hcolon heq
      rcases hw.split with hbefore | ⟨y, heq', hy⟩
      · exact absurd (by simp) (hbefore.notMem hquote (by decide))
      · obtain ⟨rfl, rfl⟩ := Text.append_cons_inj hb hquote heq'
        exact ⟨_, rest, (hup _).mp rfl, hy, rfl, hx⟩
  · rintro ⟨y, rest, hy, -, rfl, hx⟩
    exact ⟨r.afterKey.chars, r.beforeId.chars, rest, (hup _).mpr hy, hcolon, hquote, hx⟩

/-! ## Exactly when the id is the response's -/

/-- The literal of the id is written without escapes, or cut before its first quote. -/
def PlainOrCut (r : ResponseText) (kept : List Char) : Prop :=
  r.id.Plain ∨ ∀ y, kept = r.upToId ++ y → '"' ∉ y

/--
What the scan meets does no harm. When the first occurrence of the key is the top-level key, the id
is written plainly or cut. When it is another, no complete text in quotes follows a colon behind
it, or one that spells the same id.
-/
def Attributed (r : ResponseText) (kept : List Char) : Prop :=
  ∀ u v, Text.First requestIdKey u v kept →
    (u = r.upToKey → PlainOrCut r kept) ∧ (u ≠ r.upToKey → ∀ x, Quoted v x → x = r.id.value)

/-- Of a literal that was kept up to a quote, the scan takes the characters as written, and they
are those of the string exactly when none is escaped. -/
theorem quoted_literal_iff {lit : Literal} {rest y : List Char}
    (hcut : Cut (lit.raw ++ '"' :: rest) y) :
    (∀ x rest', y = x ++ '"' :: rest' → '"' ∉ x → x = lit.value) ↔ lit.Plain ∨ '"' ∉ y := by
  constructor
  · intro hall
    by_contra hnot
    obtain ⟨hplain, hquote⟩ := not_or.mp hnot
    obtain ⟨x, rest', rfl, hx⟩ := List.eq_append_cons_of_mem (not_not.mp hquote)
    have hvalue := hall x rest' rfl hx
    by_cases hraw : '"' ∈ lit.raw
    · exact hx (hvalue ▸ Literal.quote_mem_value hraw)
    · rcases hcut.split with hbefore | ⟨k', heq, -⟩
      · exact hbefore.notMem hraw (by decide) (by simp)
      · have hlt := Literal.length_value_lt hplain
        rw [← hvalue, (Text.append_cons_inj hx hraw heq).1] at hlt
        omega
  · rintro (hplain | hquote) x rest' rfl hx
    · have hraw := Literal.quote_notMem_of_plain hplain
      rcases hcut.split with hbefore | ⟨k', heq, -⟩
      · exact absurd (by simp) (hbefore.notMem hraw (by decide))
      · rw [(Text.append_cons_inj hx hraw heq).1]
        exact Literal.raw_of_plain hplain
    · exact absurd (by simp) hquote

/-- At the top-level key, the scan is right exactly when the id is written plainly or cut. -/
theorem quoted_ownKey_iff {r : ResponseText} {kept v : List Char} (hcut : Cut r.text kept)
    (hkept : kept = r.upToKey ++ requestIdKey ++ v) :
    (∀ x, Quoted v x → x = r.id.value) ↔ PlainOrCut r kept := by
  have hquoted := fun x => quoted_ownKey (x := x) hcut hkept
  constructor
  · intro hall
    by_cases hreach : ∃ y, kept = r.upToId ++ y ∧ Cut (r.id.raw ++ '"' :: r.rest) y
    · obtain ⟨y, hy, hcuty⟩ := hreach
      have hliteral := (quoted_literal_iff hcuty).mp fun x rest' hx hnot =>
        hall x ((hquoted x).mpr ⟨y, rest', hy, hcuty, hx, hnot⟩)
      rcases hliteral with hplain | hquote
      · exact .inl hplain
      · refine .inr fun y' hy' => ?_
        rwa [List.append_cancel_left (hy'.symm.trans hy)]
    · refine .inr fun y hy => ?_
      have hcuty : Cut (r.id.raw ++ '"' :: r.rest) y := by
        rw [hy, r.text_eq] at hcut
        refine Cut.append (a := r.upToId) ?_
        simpa [ResponseText.upToId] using hcut
      exact absurd ⟨y, hy, hcuty⟩ hreach
  · intro hplain x hx
    obtain ⟨y, rest, hy, hcuty, heq, hnot⟩ := (hquoted x).mp hx
    refine (quoted_literal_iff hcuty).mpr ?_ x rest heq hnot
    exact hplain.imp_right fun hall => hall y hy

/--
**The recovered id is the response's, exactly when the scan is not misled.** For every response
object with a top-level id, every serialization of it and every cut, `request_id_from_prefix` is
`none` or that id if and only if the first occurrence of the key is the top-level key, its value
written without escapes or cut, or is another that leads to no text in quotes or to the same one.
-/
theorem requestIdFromPrefix_iff (r : ResponseText) {kept : String} (hcut : Cut r.text kept.toList) :
    (requestIdFromPrefix kept = none ∨ requestIdFromPrefix kept = some r.requestId) ↔
      Attributed r kept.toList := by
  have hright : (requestIdFromPrefix kept = none ∨ requestIdFromPrefix kept = some r.requestId) ↔
      ∀ u v, Text.First requestIdKey u v kept.toList → ∀ x, Quoted v x → x = r.id.value := by
    constructor
    · intro hid u v hfirst x hx
      have hsome : requestIdFromPrefix kept = some (String.ofList x) :=
        requestIdFromPrefix_eq_some_iff.mpr ⟨u, v, hfirst, by rwa [String.toList_ofList]⟩
      rcases hid with hnone | hown
      · rw [hnone] at hsome
        cases hsome
      · rw [hown, Option.some.injEq, ResponseText.requestId] at hsome
        exact (String.ofList_injective hsome).symm
    · intro hall
      cases hscan : requestIdFromPrefix kept with
      | none => exact .inl rfl
      | some id =>
        right
        obtain ⟨u, v, hfirst, hquoted⟩ := requestIdFromPrefix_eq_some_iff.mp hscan
        rw [ResponseText.requestId, ← hall u v hfirst id.toList hquoted, String.ofList_toList]
  rw [hright]
  refine forall_congr' fun u => forall_congr' fun v => forall_congr' fun hfirst => ?_
  by_cases hu : u = r.upToKey
  · subst hu
    rw [quoted_ownKey_iff hcut hfirst.split]
    exact ⟨fun h => ⟨fun _ => h, fun hne => absurd rfl hne⟩, fun h => h.1 rfl⟩
  · exact ⟨fun h => ⟨fun heq => absurd heq hu, fun _ => h⟩, fun h => h.2 hu⟩

/-- No character of the text needs an escape. -/
theorem plain_of_all {cs : List Char}
    (h : cs.all (fun c => c ≠ '"' ∧ c ≠ '\\' ∧ 0x20 ≤ c.toNat) = true) :
    ∀ c ∈ cs, c ≠ '"' ∧ c ≠ '\\' ∧ 0x20 ≤ c.toNat := fun c hc =>
  of_decide_eq_true (List.all_eq_true.mp h c hc)

/-- A literal that writes each character as itself. -/
def plainLiteral (cs : List Char) (h : ∀ c ∈ cs, c ≠ '"' ∧ c ≠ '\\' ∧ 0x20 ≤ c.toNat) : Literal :=
  cs.attach.map fun c =>
    .plain c.val (h c.val c.property).1 (h c.val c.property).2.1 (h c.val c.property).2.2

/-- `{"request_id": "abc-123", "status": "success"}` -/
def idFirst : ResponseText where
  lead := .none
  before := []
  beforeKey := .none
  key := plainLiteral requestIdName (plain_of_all rfl)
  isKey := by decide
  afterKey := .none
  beforeId := .space
  id := plainLiteral "abc-123".toList (plain_of_all rfl)
  afterId := .none
  after := [.mk .space (plainLiteral "status".toList (plain_of_all rfl)) .none .space
    (.string (plainLiteral "success".toList (plain_of_all rfl))) .none]
  only := by decide
  blanks := .none
  trail := .none

theorem requestIdFromPrefix_iff_idFirst :
    idFirst.text = "\x7b\"request_id\": \"abc-123\", \"status\": \"success\"\x7d".toList ∧
    idFirst.requestId = "abc-123" ∧
    ((requestIdFromPrefix "\x7b\"request_id\": \"abc-123\", \"status\": \"succ" = none ∨
        requestIdFromPrefix "\x7b\"request_id\": \"abc-123\", \"status\": \"succ" =
          some idFirst.requestId) ↔
      Attributed idFirst "\x7b\"request_id\": \"abc-123\", \"status\": \"succ".toList) :=
  ⟨by decide, by decide, requestIdFromPrefix_iff idFirst ⟨41, 0, by decide⟩⟩

/-- `{"out":{"request_id":"b"},"request_id":"a"}` -/
def nestedFirst : ResponseText where
  lead := .none
  before := [.mk .none (plainLiteral "out".toList (plain_of_all rfl)) .none .none
    (.object [.mk .none (plainLiteral requestIdName (plain_of_all rfl)) .none .none
      (.string (plainLiteral ['b'] (plain_of_all rfl))) .none] .none) .none]
  beforeKey := .none
  key := plainLiteral requestIdName (plain_of_all rfl)
  isKey := by decide
  afterKey := .none
  beforeId := .none
  id := plainLiteral ['a'] (plain_of_all rfl)
  afterId := .none
  after := []
  only := by decide
  blanks := .none
  trail := .none

/-- The response is that of call `a`, and the scan takes the id of the nested object. -/
theorem nested_id_recovered :
    Cut nestedFirst.text "\x7b\"out\":\x7b\"request_id\":\"b\"\x7d,\"requ".toList ∧
      nestedFirst.requestId = "a" ∧
      requestIdFromPrefix "\x7b\"out\":\x7b\"request_id\":\"b\"\x7d,\"requ" = some "b" :=
  ⟨⟨31, 0, by decide⟩, by decide, by decide⟩

/-! ## Where the key can stand

Of the tokens of a JSON text only a string literal holds a quote, and no token begins like the
name of the key. So the key stands in the text only inside a literal.
-/

/-- The literal holds the characters of the key: it is the key, or ends with it behind an escaped
quote. -/
def Mentions (lit : Literal) : Prop := requestIdKey <:+: lit.text

/-- No occurrence of the key starts in this part of a text, whatever token follows. -/
structure Unkeyed (t : List Char) : Prop where
  start : t.head? ≠ some 'r'
  inside : ∀ next u v, next.head? ≠ some 'r' → t ++ next = u ++ requestIdKey ++ v →
    t.length ≤ u.length

theorem head?_append_ne {t next : List Char} (ht : t.head? ≠ some 'r')
    (hnext : next.head? ≠ some 'r') : (t ++ next).head? ≠ some 'r' := by
  cases t with
  | nil => exact hnext
  | cons c t => exact ht

theorem Unkeyed.append {t₁ t₂ : List Char} (h₁ : Unkeyed t₁) (h₂ : Unkeyed t₂) :
    Unkeyed (t₁ ++ t₂) where
  start := head?_append_ne h₁.start h₂.start
  inside := by
    intro next u v hnext heq
    rw [List.append_assoc] at heq
    have hle := h₁.inside (t₂ ++ next) u v (head?_append_ne h₂.start hnext) heq
    obtain ⟨u', rfl⟩ : ∃ u', u = t₁ ++ u' := by
      have hpre : t₁ <+: u ++ requestIdKey ++ v := heq ▸ List.prefix_append t₁ (t₂ ++ next)
      rw [List.append_assoc] at hpre
      obtain ⟨u', hu'⟩ := List.prefix_of_prefix_length_le hpre (List.prefix_append u _) hle
      exact ⟨u', hu'.symm⟩
    rw [List.append_assoc, List.append_assoc] at heq
    have heq' := List.append_cancel_left heq
    have hle' := h₂.inside next u' v hnext (by rw [heq', List.append_assoc])
    rw [List.length_append, List.length_append]
    omega

/-- The key starts with a quote. -/
theorem unkeyed_of_notMem {t : List Char} (hstart : t.head? ≠ some 'r') (hquote : '"' ∉ t) :
    Unkeyed t where
  start := hstart
  inside := by
    intro next u v _ heq
    by_contra hlt
    have hget : (t ++ next)[u.length]? = some '"' := by
      rw [heq, List.append_assoc, List.getElem?_append_right (Nat.le_refl _), Nat.sub_self]
      rfl
    rw [List.getElem?_append_left (by omega)] at hget
    exact hquote (List.mem_of_getElem? hget)

/-- A literal that does not hold the key: from any of its quotes but the last, the next quote is in
the literal, and behind the last one a token follows. -/
theorem unkeyed_literal {lit : Literal} (h : ¬ Mentions lit) : Unkeyed lit.text where
  start := by simp [Literal.text]
  inside := by
    intro next u v hnext heq
    by_contra hlt
    have hlen : lit.text.length = lit.raw.length + 2 := by simp [Literal.text]
    by_cases hlast : u.length = lit.raw.length + 1
    · -- It starts at the closing quote, so the next token begins with the name.
      have hget : (lit.text ++ next)[u.length + 1]? = some 'r' := by
        rw [heq, List.append_assoc, List.getElem?_append_right (by omega),
          show u.length + 1 - u.length = 1 by omega]
        rfl
      rw [List.getElem?_append_right (by omega), show u.length + 1 - lit.text.length = 0 by omega,
        ← List.head?_eq_getElem?] at hget
      exact hnext hget
    · -- It starts at an earlier quote, and its own last quote is the next one.
      rw [List.append_assoc] at heq
      have hpre : u <+: lit.text :=
        List.prefix_of_prefix_length_le (heq ▸ List.prefix_append u (requestIdKey ++ v))
          (List.prefix_append lit.text next) (by omega)
      obtain ⟨y, hy⟩ := hpre
      have hylen : 2 ≤ y.length := by
        have hlens := congrArg List.length hy
        rw [List.length_append] at hlens
        omega
      rw [← hy, List.append_assoc] at heq
      have hkey : y ++ next = '"' :: (requestIdName ++ '"' :: v) := List.append_cancel_left heq
      cases y with
      | nil => simp at hylen
      | cons c x =>
        rw [List.cons_append, List.cons.injEq] at hkey
        obtain ⟨rfl, hname⟩ := hkey
        have hmem : '"' ∈ x := by
          rcases List.eq_nil_or_concat' x with rfl | ⟨x', l, rfl⟩
          · simp at hylen
          · have hlast : u ++ '"' :: x' ++ [l] = '"' :: lit.raw ++ ['"'] := by
              rw [List.append_assoc]
              exact hy
            have hl := List.append_inj_right' hlast rfl
            rw [List.singleton_inj] at hl
            exact hl ▸ List.mem_append_right _ (List.mem_singleton.mpr rfl)
        obtain ⟨p, q, rfl, hp⟩ := List.eq_append_cons_of_mem hmem
        rw [List.append_assoc, List.cons_append] at hname
        obtain ⟨rfl, -⟩ := Text.append_cons_inj hp (by decide) hname
        refine h ⟨u, q, ?_⟩
        rw [← hy, List.append_assoc]
        rfl

theorem unkeyed_blanks (b : Blanks) : Unkeyed b.chars := by
  refine unkeyed_of_notMem (fun hhead => ?_) (notMem_blanks b rfl)
  exact notMem_blanks b rfl (List.mem_of_head? hhead)

theorem digit_ne (d : Fin 10) : Numeral.digit d ≠ '"' ∧ Numeral.digit d ≠ 'r' := by
  have hall : ∀ d : Fin 10, Numeral.digit d ≠ '"' ∧ Numeral.digit d ≠ 'r' := by decide
  exact hall d

theorem unkeyed_numeral (n : Numeral) : Unkeyed n.text := by
  have hdigits : ∀ (d : Fin 10) (ds : List (Fin 10)), ∀ c ∈ (d :: ds).map Numeral.digit,
      c ≠ '"' ∧ c ≠ 'r' := by
    intro d ds c hc
    obtain ⟨e, -, rfl⟩ := List.mem_map.mp hc
    exact digit_ne e
  have hwhole : ∀ c ∈ Nat.toDigits 10 n.whole, c ≠ '"' ∧ c ≠ 'r' := by
    intro c hc
    have hdigit := Nat.isDigit_of_mem_toDigits (by decide) (by decide) hc
    constructor
    · rintro rfl
      exact absurd hdigit (by decide)
    · rintro rfl
      exact absurd hdigit (by decide)
  have hfraction : ∀ c ∈ Numeral.fractionText n.fraction, c ≠ '"' ∧ c ≠ 'r' := by
    cases n.fraction with
    | none => simp [Numeral.fractionText]
    | some f =>
      intro c hc
      rcases List.mem_cons.mp hc with rfl | hc
      · decide
      · exact hdigits f.1 f.2 c hc
  have hexponent : ∀ c ∈ Numeral.exponentText n.exponent, c ≠ '"' ∧ c ≠ 'r' := by
    cases n.exponent with
    | none => simp [Numeral.exponentText]
    | some e =>
      obtain ⟨upper, sign, d, ds⟩ := e
      intro c hc
      rcases List.mem_cons.mp hc with rfl | hc
      · cases upper with
        | true => decide
        | false => decide
      · rcases List.mem_append.mp hc with hsign | hc
        · rcases sign with _ | _ | _
          · cases hsign
          · rw [List.mem_singleton.mp hsign]
            decide
          · rw [List.mem_singleton.mp hsign]
            decide
        · exact hdigits d ds c hc
  have hall : ∀ c ∈ n.text, c ≠ '"' ∧ c ≠ 'r' := by
    intro c hc
    rw [Numeral.text, List.mem_append, List.mem_append, List.mem_append] at hc
    rcases hc with ((hminus | hc) | hc) | hc
    · split at hminus
      · rw [List.mem_singleton.mp hminus]
        decide
      · cases hminus
    · exact hwhole c hc
    · exact hfraction c hc
    · exact hexponent c hc
  refine unkeyed_of_notMem (fun hhead => ?_) fun hmem => (hall _ hmem).1 rfl
  exact (hall _ (List.mem_of_head? hhead)).2 rfl

/-- Commas keep texts apart. -/
theorem unkeyed_joined : ∀ {ts : List (List Char)}, (∀ t ∈ ts, Unkeyed t) → Unkeyed (joined ts)
  | [], _ => unkeyed_of_notMem (by simp [joined]) (by simp [joined])
  | [t], h => h t (by simp)
  | t :: t' :: ts, h => by
    have hcomma : Unkeyed [','] := unkeyed_of_notMem (by decide) (by decide)
    have hrest : Unkeyed (joined (t' :: ts)) :=
      unkeyed_joined fun u hu => h u (List.mem_cons_of_mem t hu)
    exact (h t (by simp)).append (hcomma.append hrest)

mutual

/-- A value whose literals do not hold the key. -/
theorem unkeyed_document : ∀ d : Document, (∀ lit ∈ d.literals, ¬ Mentions lit) → Unkeyed d.text
  | .null, _ => unkeyed_of_notMem (by decide) (by decide)
  | .bool true, _ => unkeyed_of_notMem (by decide) (by decide)
  | .bool false, _ => unkeyed_of_notMem (by decide) (by decide)
  | .number n, _ => unkeyed_numeral n
  | .string lit, h => unkeyed_literal (h lit (by simp))
  | .array items blanks, h => by
    have hopen : Unkeyed ['['] := unkeyed_of_notMem (by decide) (by decide)
    have hclose : Unkeyed [']'] := unkeyed_of_notMem (by decide) (by decide)
    have hitems := unkeyed_joined (unkeyed_items items h)
    exact hopen.append ((hitems.append (unkeyed_blanks blanks)).append hclose)
  | .object members blanks, h => by
    have hopen : Unkeyed ['{'] := unkeyed_of_notMem (by decide) (by decide)
    have hclose : Unkeyed ['}'] := unkeyed_of_notMem (by decide) (by decide)
    have hmembers := unkeyed_joined (unkeyed_members members h)
    exact hopen.append ((hmembers.append (unkeyed_blanks blanks)).append hclose)

theorem unkeyed_item : ∀ i : Item, (∀ lit ∈ i.literals, ¬ Mentions lit) → Unkeyed i.text
  | .mk before value after, h =>
    ((unkeyed_blanks before).append (unkeyed_document value h)).append (unkeyed_blanks after)

theorem unkeyed_member : ∀ m : Member, (∀ lit ∈ m.literals, ¬ Mentions lit) → Unkeyed m.text
  | .mk before key afterKey beforeValue value after, h => by
    have hcolon : Unkeyed [':'] := unkeyed_of_notMem (by decide) (by decide)
    have hkey := unkeyed_literal (h key (by simp))
    have hvalue := unkeyed_document value fun lit hlit =>
      h lit (by simp [hlit])
    have hhead := ((unkeyed_blanks before).append hkey).append (unkeyed_blanks afterKey)
    exact (hhead.append (hcolon.append ((unkeyed_blanks beforeValue).append hvalue))).append
      (unkeyed_blanks after)

theorem unkeyed_items : ∀ is : List Item, (∀ lit ∈ itemLiterals is, ¬ Mentions lit) →
    ∀ t ∈ itemTexts is, Unkeyed t
  | [], _, t, ht => by cases ht
  | i :: is, h, t, ht => by
    rw [itemTexts_cons, List.mem_cons] at ht
    rcases ht with rfl | ht
    · exact unkeyed_item i fun lit hlit => h lit (by simp [hlit])
    · exact unkeyed_items is (fun lit hlit => h lit (by simp [hlit])) t ht

theorem unkeyed_members : ∀ ms : List Member, (∀ lit ∈ memberLiterals ms, ¬ Mentions lit) →
    ∀ t ∈ memberTexts ms, Unkeyed t
  | [], _, t, ht => by cases ht
  | m :: ms, h, t, ht => by
    rw [memberTexts_cons, List.mem_cons] at ht
    rcases ht with rfl | ht
    · exact unkeyed_member m fun lit hlit => h lit (by simp [hlit])
    · exact unkeyed_members ms (fun lit hlit => h lit (by simp [hlit])) t ht

end

theorem unkeyed_upToKey (r : ResponseText)
    (hbefore : ∀ m ∈ r.before, ∀ lit ∈ m.literals, ¬ Mentions lit) : Unkeyed r.upToKey := by
  have hopen : Unkeyed ['\x7b'] := unkeyed_of_notMem (by decide) (by decide)
  have hcomma : Unkeyed [','] := unkeyed_of_notMem (by decide) (by decide)
  have hmembers : ∀ ms : List Member, (∀ m ∈ ms, ∀ lit ∈ m.literals, ¬ Mentions lit) →
      Unkeyed (ms.flatMap fun m => m.text ++ [',']) := by
    intro ms
    induction ms with
    | nil => exact fun _ => unkeyed_of_notMem (by simp) (by simp)
    | cons m ms ih =>
      intro h
      have hm := unkeyed_member m (h m List.mem_cons_self)
      exact (hm.append hcomma).append (ih fun m' hm' => h m' (List.mem_cons_of_mem m hm'))
  rw [ResponseText.upToKey]
  exact ((unkeyed_blanks r.lead).append (hopen.append (hmembers r.before hbefore))).append
    (unkeyed_blanks r.beforeKey)

/-- What is kept up to a character that is no replacement is a part of the text. -/
theorem Cut.prefix_of {u : List Char} (h : Cut t (u ++ c :: k)) (hmark : c ≠ replacement) :
    ∃ n, u ++ [c] <+: t.take n ∧ t.take n <+: u ++ c :: k := by
  obtain ⟨n, m, heq⟩ := h
  refine ⟨n, ?_, heq ▸ List.prefix_append _ _⟩
  by_contra hnot
  have hlen : (t.take n).length ≤ u.length := by
    by_contra hlt
    have hstart : u ++ [c] <+: u ++ c :: k := ⟨k, by simp⟩
    refine hnot (List.prefix_of_prefix_length_le hstart (heq ▸ List.prefix_append _ _) ?_)
    simp only [List.length_append, List.length_singleton]
    omega
  have hget : (t.take n ++ List.replicate m replacement)[u.length]? = some c := by
    rw [← heq, List.getElem?_append_right (Nat.le_refl _), Nat.sub_self]
    rfl
  rw [List.getElem?_append_right hlen] at hget
  exact hmark (List.eq_of_mem_replicate (List.mem_of_getElem? hget))

/--
When the key is written plainly and no string literal before it holds it, the first occurrence in
any cut is the top-level key.
-/
theorem first_eq_upToKey {r : ResponseText} {kept u v : List Char} (hkey : r.key.Plain)
    (hbefore : ∀ m ∈ r.before, ∀ lit ∈ m.literals, ¬ Mentions lit) (hcut : Cut r.text kept)
    (hfirst : Text.First requestIdKey u v kept) : u = r.upToKey := by
  have hown : r.key.text = requestIdKey := by
    rw [Literal.text, Literal.raw_of_plain hkey, r.isKey]
    rfl
  obtain ⟨after, htext⟩ : ∃ after, r.text = r.upToKey ++ requestIdKey ++ after :=
    ⟨_, by rw [r.text_eq, hown, List.append_assoc]⟩
  -- The key ends with a quote, so all of this occurrence is a part of the text.
  have hkept : kept = (u ++ '"' :: requestIdName) ++ '"' :: v := by
    rw [hfirst.split, List.append_assoc, List.append_assoc]
    rfl
  rw [hkept] at hcut
  obtain ⟨n, hpart, hwhole⟩ := hcut.prefix_of (by decide)
  have hpart' : u ++ requestIdKey <+: r.text.take n := by
    rw [List.append_assoc] at hpart
    exact hpart
  have hlen := hpart'.length_le
  rw [List.length_append] at hlen
  have hle : r.upToKey.length ≤ u.length := by
    obtain ⟨v', hv'⟩ := hpart'.trans (List.take_prefix n r.text)
    have hstart : (requestIdKey ++ after).head? ≠ some 'r' := by
      rw [requestIdKey_eq, List.cons_append, List.head?_cons]
      decide
    refine (unkeyed_upToKey r hbefore).inside (requestIdKey ++ after) u v' hstart ?_
    rw [hv', htext, List.append_assoc]
  have hge : u.length ≤ r.upToKey.length := by
    have hearlier : r.upToKey ++ requestIdKey <+: r.text.take n := by
      refine List.prefix_of_prefix_length_le ⟨after, htext.symm⟩ (List.take_prefix n r.text) ?_
      rw [List.length_append]
      omega
    obtain ⟨a, ha⟩ := hearlier.trans hwhole
    exact hfirst.least r.upToKey a (by rw [ha, hkept])
  have htext' : u ++ requestIdKey <+: r.text := hpart'.trans (List.take_prefix n r.text)
  have hpre : u <+: r.text := (List.prefix_append u requestIdKey).trans htext'
  have hpre' : r.upToKey <+: r.text := by
    rw [htext, List.append_assoc]
    exact List.prefix_append r.upToKey (requestIdKey ++ after)
  exact List.IsPrefix.eq_of_length (List.prefix_of_prefix_length_le hpre hpre' hge)
    (Nat.le_antisymm hge hle)

/--
**An id written plainly, before any other mention of its key, is never misattributed**: whatever
the cut, the scan yields it or nothing.
-/
theorem attributed_of_early (r : ResponseText) {kept : List Char} (hcut : Cut r.text kept)
    (hkey : r.key.Plain) (hid : r.id.Plain)
    (hbefore : ∀ m ∈ r.before, ∀ lit ∈ m.literals, ¬ Mentions lit) : Attributed r kept := by
  intro u v hfirst
  have hu := first_eq_upToKey hkey hbefore hcut hfirst
  exact ⟨fun _ => .inl hid, fun hne => absurd hu hne⟩

end Cpex.Host.Worker
