import Cpex.Host.CredentialPayloads
import Cpex.Infra.JsonPath

/-!
# What the comparison of a parsed field with its original finds

`firstDropped` walks two values at once. It notices a set field whose key is gone, and an array
whose length changed; it goes no further where the two values are of different kinds.

* `Lost` — a value that carries something and has no counterpart
* `Noticed` — the places where the walk stops with an answer
* `firstDropped_answers` — the answer is the first of them
* `firstDropped_complete_iff` — when that finds the losses
* `nulled_field_accepted` — a loss it does not find
-/

namespace Cpex.Host

open Cpex.Infra Json

/-! ## Losses -/

/-- What a value that carries something has to come back as. -/
def Counterpart : Json → Json → Prop
  | .object _, .object kept => kept ≠ []
  | .array items, .array kept => kept ≠ [] ∧ items.length = kept.length
  | .object _, _ | .array _, _ | _, .object _ | _, .array _ => False
  | _, w => isEmptyValue w = false

/-- The path leads to a value that carries something, and to no counterpart of it. -/
def Lost (original back : Json) (p : Path) : Prop :=
  ∃ v, original.at? p = some v ∧ isEmptyValue v = false ∧
    ∀ w, back.at? p = some w → ¬ Counterpart v w

/-- The text of a path. -/
def render (path : String) : Path → String
  | [] => path
  | .key k :: rest => render s!"{path}.{k}" rest
  | .index i :: rest => render s!"{path}[{i}]" rest

/-! ## What the walk notices -/

/-- The walk down both values reaches `p` in the first one, where there is `x`: a set field whose
key is not in the second, or an array of another length. -/
inductive Noticed : Json → Json → Path → Json → Prop
  | length {items kept : List Json} (h : items.length ≠ kept.length) :
      Noticed (.array items) (.array kept) [] (.array items)
  | item {items kept : List Json} {i : Nat} {v w x : Json} {p : Path}
      (hlen : items.length = kept.length) (hv : items[i]? = some v) (hw : kept[i]? = some w)
      (h : Noticed v w p x) : Noticed (.array items) (.array kept) (.index i :: p) x
  | missing {fields kept : List (String × Json)} {k : String} {v : Json} (hv : (k, v) ∈ fields)
      (hset : isEmptyValue v = false) (hw : Assoc.get? k kept = none) :
      Noticed (.object fields) (.object kept) [.key k] v
  | field {fields kept : List (String × Json)} {k : String} {v w x : Json} {p : Path}
      (hv : (k, v) ∈ fields) (hset : isEmptyValue v = false) (hw : Assoc.get? k kept = some w)
      (h : Noticed v w p x) : Noticed (.object fields) (.object kept) (.key k :: p) x

/-- In the order of the document the first path comes before the second. -/
inductive Earlier : Json → Path → Path → Prop
  | key {fields : List (String × Json)} {k k' : String} {p q : Path}
      (h : List.Sublist [k, k'] (fields.map Prod.fst)) :
      Earlier (.object fields) (.key k :: p) (.key k' :: q)
  | index {items : List Json} {i j : Nat} {p q : Path} (h : i < j) :
      Earlier (.array items) (.index i :: p) (.index j :: q)
  | inKey {fields : List (String × Json)} {k : String} {v : Json} {p q : Path}
      (hv : (k, v) ∈ fields) (h : Earlier v p q) :
      Earlier (.object fields) (.key k :: p) (.key k :: q)
  | inIndex {items : List Json} {i : Nat} {v : Json} {p q : Path} (hv : items[i]? = some v)
      (h : Earlier v p q) : Earlier (.array items) (.index i :: p) (.index i :: q)

/-- The first place where the walk notices something, and what is there. -/
def First (original back : Json) (p : Path) (x : Json) : Prop :=
  Noticed original back p x ∧ ∀ q y, Noticed original back q y → q = p ∨ Earlier original p q

/-- What an answer of the walk says. -/
def Answers (original back : Json) (path : String) : Option String → Prop
  | none => ∀ p x, ¬ Noticed original back p x
  | some s => ∃ p x, First original back p x ∧ s = render path p

/-! ## The walk -/

/-- The items from index `i` on, each with its answer. -/
theorem firstDroppedItem_cases (path : String) : ∀ {items kept : List Json} (i : Nat),
    (∀ v ∈ items, ∀ w path, Answers v w path (firstDropped v w path)) →
    items.length = kept.length →
      match firstDroppedItem items kept path i with
      | none => ∀ (j : Nat) (v w : Json), items[j]? = some v → kept[j]? = some w →
          ∀ p x, ¬ Noticed v w p x
      | some s => ∃ (j : Nat) (v w : Json) (p : Path) (x : Json), items[j]? = some v ∧
          kept[j]? = some w ∧ First v w p x ∧ s = render s!"{path}[{i + j}]" p ∧
          ∀ (j' : Nat) (v' w' : Json), j' < j → items[j']? = some v' → kept[j']? = some w' →
            ∀ q y, ¬ Noticed v' w' q y
  | [], [], i, _, _ => by
    intro j v w hv
    cases hv
  | item :: items, k :: kept, i, hall, hlen => by
    have hitem := hall item (List.mem_cons_self ..) k s!"{path}[{i}]"
    have hrest := firstDroppedItem_cases path (i + 1)
      (fun v hv => hall v (List.mem_cons_of_mem _ hv)) (Nat.succ.inj hlen)
    unfold firstDroppedItem
    cases hfirst : firstDropped item k s!"{path}[{i}]" with
    | some lost =>
      rw [hfirst] at hitem
      obtain ⟨p, x, hp, htext⟩ := hitem
      exact ⟨0, item, k, p, x, rfl, rfl, hp, htext, nofun⟩
    | none =>
      rw [hfirst] at hitem
      dsimp only
      cases hdropped : firstDroppedItem items kept path (i + 1) with
      | none =>
        rw [hdropped] at hrest
        intro j v w hv hw
        cases j with
        | zero =>
          obtain rfl := Option.some.inj hv
          obtain rfl := Option.some.inj hw
          exact hitem
        | succ j => exact hrest j v w hv hw
      | some s =>
        rw [hdropped] at hrest
        obtain ⟨j, v, w, p, x, hv, hw, hp, htext, hbefore⟩ := hrest
        refine ⟨j + 1, v, w, p, x, hv, hw, hp, ?_, fun j' v' w' hlt hv' hw' => ?_⟩
        · rw [htext, Nat.add_right_comm, Nat.add_assoc]
        · cases j' with
          | zero =>
            obtain rfl := Option.some.inj hv'
            obtain rfl := Option.some.inj hw'
            exact hitem
          | succ j' => exact hbefore j' v' w' (Nat.lt_of_succ_lt_succ hlt) hv' hw'

/-- A field noticed where it stands: it is gone, or something in it is noticed. -/
inductive FieldNoticed (kept : List (String × Json)) : String × Json → Path → Json → Prop
  | missing {k : String} {v : Json} (hset : isEmptyValue v = false)
      (hw : Assoc.get? k kept = none) : FieldNoticed kept (k, v) [.key k] v
  | field {k : String} {v w x : Json} {p : Path} (hset : isEmptyValue v = false)
      (hw : Assoc.get? k kept = some w) (h : Noticed v w p x) :
      FieldNoticed kept (k, v) (.key k :: p) x

theorem noticed_object {fields kept : List (String × Json)} {p : Path} {x : Json} :
    Noticed (.object fields) (.object kept) p x ↔ ∃ f ∈ fields, FieldNoticed kept f p x := by
  constructor
  · intro h
    cases h with
    | missing hv hset hw => exact ⟨_, hv, .missing hset hw⟩
    | field hv hset hw h => exact ⟨_, hv, .field hset hw h⟩
  · rintro ⟨f, hf, h⟩
    cases h with
    | missing hset hw => exact .missing hf hset hw
    | field hset hw h => exact .field hf hset hw h

/-- The path of a field begins with its key. -/
theorem FieldNoticed.path {kept : List (String × Json)} {f : String × Json} {p : Path} {x : Json}
    (h : FieldNoticed kept f p x) : ∃ rest, p = .key f.1 :: rest := by
  cases h with
  | missing hset hw => exact ⟨[], rfl⟩
  | field hset hw h => exact ⟨_, rfl⟩

/-- The fields of an object, each with its answer. -/
theorem firstDroppedField_cases (kept : List (String × Json)) (path : String) :
    ∀ {fields : List (String × Json)},
      (∀ f ∈ fields, ∀ w path, Answers f.2 w path (firstDropped f.2 w path)) →
      match firstDroppedField fields kept path with
      | none => ∀ f ∈ fields, ∀ p x, ¬ FieldNoticed kept f p x
      | some s => ∃ before k v after p x, fields = before ++ (k, v) :: after ∧
          FieldNoticed kept (k, v) (.key k :: p) x ∧
          (∀ q y, FieldNoticed kept (k, v) (.key k :: q) y → q = p ∨ Earlier v p q) ∧
          s = render path (.key k :: p) ∧ ∀ f ∈ before, ∀ q y, ¬ FieldNoticed kept f q y
  | [], _ => nofun
  | (key, value) :: rest, hall => by
    have hvalue := hall (key, value) (List.mem_cons_self ..)
    have hrest := firstDroppedField_cases kept path
      fun f hf => hall f (List.mem_cons_of_mem _ hf)
    -- the first field says nothing
    have hskip : (∀ q y, ¬ FieldNoticed kept (key, value) q y) →
        match firstDroppedField rest kept path with
        | none => ∀ f ∈ (key, value) :: rest, ∀ p x, ¬ FieldNoticed kept f p x
        | some s => ∃ before k v after p x, (key, value) :: rest = before ++ (k, v) :: after ∧
            FieldNoticed kept (k, v) (.key k :: p) x ∧
            (∀ q y, FieldNoticed kept (k, v) (.key k :: q) y → q = p ∨ Earlier v p q) ∧
            s = render path (.key k :: p) ∧ ∀ f ∈ before, ∀ q y, ¬ FieldNoticed kept f q y := by
      intro hquiet
      cases hdropped : firstDroppedField rest kept path with
      | none =>
        rw [hdropped] at hrest
        exact List.forall_mem_cons.mpr ⟨hquiet, hrest⟩
      | some s =>
        rw [hdropped] at hrest
        obtain ⟨before, k, v, after, p, x, rfl, hp, hfirst, htext, hbefore⟩ := hrest
        exact ⟨(key, value) :: before, k, v, after, p, x, rfl, hp, hfirst, htext,
          List.forall_mem_cons.mpr ⟨hquiet, hbefore⟩⟩
    unfold firstDroppedField
    split_ifs with hempty
    · refine hskip fun q y h => ?_
      cases h with
      | missing hset hw => cases hset.symm.trans hempty
      | field hset hw h => cases hset.symm.trans hempty
    · rw [Bool.not_eq_true] at hempty
      cases hw : Assoc.get? key kept with
      | none =>
        refine ⟨[], key, value, rest, [], value, rfl, .missing hempty hw, fun q y h => ?_, rfl,
          nofun⟩
        cases h with
        | missing hset hw' => exact .inl rfl
        | field hset hw' h => cases hw'.symm.trans hw
      | some w =>
        dsimp only
        have hanswer := hvalue w s!"{path}.{key}"
        cases hfirst : firstDropped value w s!"{path}.{key}" with
        | some lost =>
          rw [hfirst] at hanswer
          obtain ⟨p, x, ⟨hp, hleast⟩, htext⟩ := hanswer
          refine ⟨[], key, value, rest, p, x, rfl, .field hempty hw hp, fun q y h => ?_, htext,
            nofun⟩
          cases h with
          | missing hset hw' => cases hw'.symm.trans hw
          | field hset hw' h =>
            obtain rfl := Option.some.inj (hw'.symm.trans hw)
            exact hleast q y h
        | none =>
          rw [hfirst] at hanswer
          refine hskip fun q y h => ?_
          cases h with
          | missing hset hw' => cases hw'.symm.trans hw
          | field hset hw' h =>
            obtain rfl := Option.some.inj (hw'.symm.trans hw)
            exact hanswer _ _ h

/-- Two values of different kinds, or of a kind without members. -/
theorem answers_none {original back : Json} {path : String}
    (hkind : ∀ p x, ¬ Noticed original back p x) (h : firstDropped original back path = none) :
    Answers original back path (firstDropped original back path) := by
  rw [h]
  exact hkind

/-- **The answer of the walk is the first place it notices.** -/
theorem firstDropped_answers {original : Json} (h : original.DistinctKeys) :
    ∀ back path, Answers original back path (firstDropped original back path) := by
  induction h with
  | null => exact fun back path => answers_none nofun (by rw [firstDropped.eq_def])
  | bool b => exact fun back path => answers_none nofun (by rw [firstDropped.eq_def])
  | number n => exact fun back path => answers_none nofun (by rw [firstDropped.eq_def])
  | string s => exact fun back path => answers_none nofun (by rw [firstDropped.eq_def])
  | @array items members ih =>
    intro back path
    cases back with
    | array kept =>
      rw [firstDropped]
      split_ifs with hlen
      · refine ⟨[], _, ⟨.length hlen, fun q y h => ?_⟩, rfl⟩
        cases h with
        | length => exact .inl rfl
        | item hlen' => exact absurd hlen' hlen
      · rw [not_not] at hlen
        have hcases := firstDroppedItem_cases path 0 ih hlen
        cases hdropped : firstDroppedItem items kept path 0 with
        | none =>
          rw [hdropped] at hcases
          intro p x h
          cases h with
          | length hne => exact hne hlen
          | item hlen' hv hw h => exact hcases _ _ _ hv hw _ _ h
        | some s =>
          rw [hdropped] at hcases
          obtain ⟨j, v, w, p, x, hv, hw, ⟨hp, hleast⟩, htext, hbefore⟩ := hcases
          rw [Nat.zero_add] at htext
          refine ⟨.index j :: p, x, ⟨.item hlen hv hw hp, fun q y h => ?_⟩, htext⟩
          cases h with
          | length hne => exact absurd hlen hne
          | @item _ _ i v' w' _ q hlen' hv' hw' h =>
            rcases Nat.lt_trichotomy i j with hlt | rfl | hgt
            · exact absurd h (hbefore i v' w' hlt hv' hw' q y)
            · obtain rfl := Option.some.inj (hv.symm.trans hv')
              obtain rfl := Option.some.inj (hw.symm.trans hw')
              rcases hleast q y h with rfl | hearlier
              · exact .inl rfl
              · exact .inr (.inIndex hv hearlier)
            · exact .inr (.index hgt)
    | null => exact answers_none nofun (by rw [firstDropped.eq_def])
    | bool b => exact answers_none nofun (by rw [firstDropped.eq_def])
    | number n => exact answers_none nofun (by rw [firstDropped.eq_def])
    | string s => exact answers_none nofun (by rw [firstDropped.eq_def])
    | object fields => exact answers_none nofun (by rw [firstDropped.eq_def])
  | @object fields nodup members ih =>
    intro back path
    cases back with
    | object kept =>
      rw [firstDropped]
      have hcases := firstDroppedField_cases kept path ih
      cases hdropped : firstDroppedField fields kept path with
      | none =>
        rw [hdropped] at hcases
        intro p x h
        obtain ⟨f, hf, hnoticed⟩ := noticed_object.mp h
        exact hcases f hf p x hnoticed
      | some s =>
        rw [hdropped] at hcases
        obtain ⟨before, k, v, after, p, x, rfl, hp, hleast, htext, hbefore⟩ := hcases
        have hmem : (k, v) ∈ before ++ (k, v) :: after :=
          List.mem_append_right _ (List.mem_cons_self ..)
        refine ⟨.key k :: p, x, ⟨noticed_object.mpr ⟨_, hmem, hp⟩, fun q y h => ?_⟩, htext⟩
        obtain ⟨⟨k', v'⟩, hf, hnoticed⟩ := noticed_object.mp h
        obtain ⟨q, rfl⟩ := hnoticed.path
        rcases List.mem_append.mp hf with hin | hin
        · exact absurd hnoticed (hbefore _ hin _ _)
        · rcases List.mem_cons.mp hin with heq | hafter
          · obtain ⟨rfl, rfl⟩ := Prod.mk.inj heq
            rcases hleast q y hnoticed with rfl | hearlier
            · exact .inl rfl
            · exact .inr (.inKey hmem hearlier)
          · refine .inr (.key ?_)
            rw [List.map_append, List.map_cons]
            have hkey : k' ∈ after.map Prod.fst := List.mem_map.mpr ⟨_, hafter, rfl⟩
            exact ((List.singleton_sublist.mpr hkey).cons_cons k).trans
              (List.sublist_append_right _ _)
    | null => exact answers_none nofun (by rw [firstDropped.eq_def])
    | bool b => exact answers_none nofun (by rw [firstDropped.eq_def])
    | number n => exact answers_none nofun (by rw [firstDropped.eq_def])
    | string s => exact answers_none nofun (by rw [firstDropped.eq_def])
    | array items => exact answers_none nofun (by rw [firstDropped.eq_def])

/-! ## One first place -/

theorem not_sublist_swap {a b : String} {l : List String} (hnodup : l.Nodup)
    (hab : List.Sublist [a, b] l) : ¬ List.Sublist [b, a] l := by
  intro hba
  induction l with
  | nil => cases hab
  | cons c l ih =>
    obtain ⟨hc, hl⟩ := List.nodup_cons.mp hnodup
    cases hab with
    | cons _ hab =>
      cases hba with
      | cons _ hba => exact ih hl hab hba
      | cons_cons _ hba =>
        exact hc (hab.subset (List.mem_cons_of_mem _ (List.mem_singleton_self _)))
    | cons_cons _ hab =>
      cases hba with
      | cons _ hba => exact hc (hba.subset (List.mem_cons_of_mem _ (List.mem_singleton_self _)))
      | cons_cons _ hba => exact hc (hba.subset (List.mem_singleton_self _))

theorem ne_of_sublist {a b : String} {l : List String} (hnodup : l.Nodup)
    (hab : List.Sublist [a, b] l) : a ≠ b := fun heq => by
  have hpair := hnodup.sublist hab
  rw [List.nodup_cons, List.mem_singleton] at hpair
  exact hpair.1 heq

/-- A field of an object with distinct keys has one value. -/
theorem value_unique {fields : List (String × Json)} (h : (Json.object fields).DistinctKeys)
    {k : String} {v v' : Json} (hv : (k, v) ∈ fields) (hv' : (k, v') ∈ fields) : v = v' := by
  have hget := Assoc.get?_of_mem h.nodup hv
  have hget' := Assoc.get?_of_mem h.nodup hv'
  exact Option.some.inj (hget.symm.trans hget')

theorem DistinctKeys.of_item {items : List Json} (h : (Json.array items).DistinctKeys) {i : Nat}
    {v : Json} (hv : items[i]? = some v) : v.DistinctKeys := by
  cases h with
  | array members => exact members v (List.mem_of_getElem? hv)

theorem DistinctKeys.of_field {fields : List (String × Json)}
    (h : (Json.object fields).DistinctKeys) {k : String} {v : Json} (hv : (k, v) ∈ fields) :
    v.DistinctKeys := by
  cases h with
  | object nodup members => exact members (k, v) hv

theorem Earlier.asymm {o : Json} {p q : Path} (h : Earlier o p q) (ho : o.DistinctKeys) :
    ¬ Earlier o q p := by
  induction h with
  | key hsub =>
    intro hback
    cases hback with
    | key hsub' => exact not_sublist_swap ho.nodup hsub hsub'
    | inKey hv h => exact ne_of_sublist ho.nodup hsub rfl
  | index hlt =>
    intro hback
    cases hback with
    | index hlt' => exact Nat.lt_asymm hlt hlt'
    | inIndex hv h => exact Nat.lt_irrefl _ hlt
  | inKey hv h ih =>
    intro hback
    cases hback with
    | key hsub => exact ne_of_sublist ho.nodup hsub rfl
    | inKey hv' h' =>
      obtain rfl := value_unique ho hv hv'
      exact ih (DistinctKeys.of_field ho hv) h'
  | inIndex hv h ih =>
    intro hback
    cases hback with
    | index hlt => exact Nat.lt_irrefl _ hlt
    | inIndex hv' h' =>
      obtain rfl := Option.some.inj (hv.symm.trans hv')
      exact ih (DistinctKeys.of_item ho hv) h'

theorem First.unique {o b x y : Json} {p q : Path} (ho : o.DistinctKeys) (hp : First o b p x)
    (hq : First o b q y) : p = q := by
  rcases hp.2 q y hq.1 with heq | hearlier
  · exact heq.symm
  · rcases hq.2 p x hp.1 with heq | hback
    · exact heq
    · exact absurd hback (hearlier.asymm ho)

/-! ## What is noticed and what is lost -/

/-- What is noticed has no counterpart. -/
theorem Noticed.no_counterpart {o b x : Json} {p : Path} (h : Noticed o b p x)
    (ho : o.DistinctKeys) : o.at? p = some x ∧ ∀ w, b.at? p = some w → ¬ Counterpart x w := by
  induction h with
  | length hlen =>
    refine ⟨rfl, fun w hw hcounterpart => ?_⟩
    obtain rfl := Option.some.inj hw
    exact hlen hcounterpart.2
  | @item items kept i v w x p hlen hv hw h ih =>
    obtain ⟨hat, hnone⟩ := ih (DistinctKeys.of_item ho hv)
    refine ⟨at?_index.mpr ⟨items, v, rfl, hv, hat⟩, fun u hu => ?_⟩
    obtain ⟨kept', w', hkept, hw', hu'⟩ := at?_index.mp hu
    obtain rfl := Json.array.inj hkept
    obtain rfl := Option.some.inj (hw.symm.trans hw')
    exact hnone u hu'
  | @missing fields kept k v hv hset hw =>
    have hget : (Json.object fields).get? k = some v := Assoc.get?_of_mem ho.nodup hv
    refine ⟨at?_key.mpr ⟨v, hget, rfl⟩, fun u hu => ?_⟩
    obtain ⟨w', hw', -⟩ := at?_key.mp hu
    cases hw'.symm.trans hw
  | @field fields kept k v w x p hv hset hw h ih =>
    obtain ⟨hat, hnone⟩ := ih (DistinctKeys.of_field ho hv)
    have hget : (Json.object fields).get? k = some v := Assoc.get?_of_mem ho.nodup hv
    refine ⟨at?_key.mpr ⟨v, hget, hat⟩, fun u hu => ?_⟩
    obtain ⟨w', hw', hu'⟩ := at?_key.mp hu
    obtain rfl := Option.some.inj (hw'.symm.trans hw)
    exact hnone u hu'

/-- A parsed field is accepted when nothing is noticed in what it serializes back to. -/
theorem parseLossless_eq_ok_iff {α : Type} {fromValue : Json → Except String α}
    {toValue : α → Except String Json} {hook field : String} {value : Json} {parsed : α}
    (h : value.DistinctKeys) :
    parseLossless fromValue toValue hook field value = .ok parsed ↔
      fromValue value = .ok parsed ∧
        ∃ back, toValue parsed = .ok back ∧ ∀ p x, ¬ Noticed value back p x := by
  unfold parseLossless
  cases hparsed : fromValue value with
  | error e => exact iff_of_false nofun fun hok => nomatch hok.1
  | ok parsed' =>
    dsimp only
    cases hback : toValue parsed' with
    | error e =>
      refine iff_of_false nofun fun ⟨heq, back, hto, _⟩ => ?_
      obtain rfl := Except.ok.inj heq
      cases hback.symm.trans hto
    | ok back =>
      dsimp only
      have hanswers := firstDropped_answers h back field
      cases hdropped : firstDropped value back field with
      | none =>
        rw [hdropped] at hanswers
        constructor
        · intro hok
          obtain rfl := Except.ok.inj hok
          exact ⟨rfl, back, hback, hanswers⟩
        · rintro ⟨heq, -⟩
          exact congrArg _ (Except.ok.inj heq)
      | some s =>
        rw [hdropped] at hanswers
        obtain ⟨p, x, hp, -⟩ := hanswers
        refine iff_of_false nofun fun ⟨heq, back', hto, hquiet⟩ => ?_
        obtain rfl := Except.ok.inj heq
        obtain rfl := Except.ok.inj (hback.symm.trans hto)
        exact hquiet p x hp.1

/--
**When the comparison finds every loss**, and names one. Where something is lost, the walk has to
notice something: a set field that is gone, or an array of another length. And the first thing it
notices must not be an empty array, unless what it is called is also the name of something lost.
-/
theorem firstDropped_complete_iff {original back : Json} (h : original.DistinctKeys)
    (path : String) :
    ((firstDropped original back path = none ↔ ∀ p, ¬ Lost original back p) ∧
        ∀ s, firstDropped original back path = some s →
          ∃ p, s = render path p ∧ Lost original back p) ↔
      ((∃ p, Lost original back p) → ∃ p x, Noticed original back p x) ∧
        ∀ p x, First original back p x →
          isEmptyValue x = false ∨ ∃ q, render path q = render path p ∧ Lost original back q := by
  have hanswers := firstDropped_answers h back path
  cases hdropped : firstDropped original back path with
  | none =>
    rw [hdropped] at hanswers
    constructor
    · rintro ⟨hnone, -⟩
      refine ⟨fun ⟨p, hp⟩ => absurd hp (hnone.mp rfl p), fun p x hp => ?_⟩
      exact absurd hp.1 (hanswers p x)
    · rintro ⟨hnoticed, -⟩
      refine ⟨iff_of_true rfl fun p hp => ?_, nofun⟩
      obtain ⟨q, y, hq⟩ := hnoticed ⟨p, hp⟩
      exact hanswers q y hq
  | some s =>
    rw [hdropped] at hanswers
    obtain ⟨p, x, hp, rfl⟩ := hanswers
    constructor
    · rintro ⟨-, hnames⟩
      refine ⟨fun _ => ⟨p, x, hp.1⟩, fun q y hq => .inr ?_⟩
      obtain ⟨r, hr, hlost⟩ := hnames _ rfl
      obtain rfl := hp.unique h hq
      exact ⟨r, hr.symm, hlost⟩
    · rintro ⟨-, hfirst⟩
      have hlost : ∃ q, render path q = render path p ∧ Lost original back q := by
        rcases hfirst p x hp with hset | hnamed
        · obtain ⟨hat, hnone⟩ := hp.1.no_counterpart h
          exact ⟨p, rfl, x, hat, hset, hnone⟩
        · exact hnamed
      obtain ⟨q, hq, hqlost⟩ := hlost
      refine ⟨iff_of_false nofun fun hnone => hnone q hqlost, fun s hs => ?_⟩
      obtain rfl := Option.some.inj hs
      exact ⟨q, hq.symm, hqlost⟩

/-- A key that is gone is found. -/
theorem firstDropped_complete_iff_missing :
    firstDropped (.object [("id", .string "alice")]) (.object []) "subject" = some "subject.id" ∧
      ∃ p, "subject.id" = render "subject" p ∧
        Lost (.object [("id", .string "alice")]) (.object []) p := by
  have hdistinct : (Json.object [("id", .string "alice")]).DistinctKeys :=
    .object (by decide) fun f hf => List.mem_singleton.mp hf ▸ .string "alice"
  have hnoticed : Noticed (.object [("id", .string "alice")]) (.object []) [.key "id"]
      (.string "alice") := .missing (List.mem_singleton_self _) rfl rfl
  refine ⟨by decide, ((firstDropped_complete_iff hdistinct "subject").mpr
    ⟨fun _ => ⟨_, _, hnoticed⟩, fun p x hp => .inl ?_⟩).2 _ (by decide)⟩
  obtain ⟨f, hf, hfield⟩ := noticed_object.mp hp.1
  obtain rfl := List.mem_singleton.mp hf
  cases hfield with
  | missing hset hw => exact hset
  | field hset hw h => cases hw

/-- **A field that comes back as `null` is not noticed.** -/
theorem nulled_field_accepted :
    firstDropped (.object [("id", .string "alice")]) (.object [("id", .null)]) "subject" = none ∧
      Lost (.object [("id", .string "alice")]) (.object [("id", .null)]) [.key "id"] := by
  refine ⟨by decide, .string "alice", rfl, rfl, fun w hw hcounterpart => ?_⟩
  obtain rfl : Json.null = w := Option.some.inj hw
  cases hcounterpart

end Cpex.Host
