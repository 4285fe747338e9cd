import Mathlib.Data.List.Induction
import Nanoservice.Table

/-!
# What tables hold

A table that is built from entries holds none but these, and under each key the value of the first
or of the last entry with it (`Table.get?_ofFirst`, `Table.get?_ofLast`). Which element of a list is
the first or the last one of a kind is said without a search (`IsFirst`, `IsLast`).
-/

namespace Nanoservice

/-! ## First and last elements -/

section

variable {α β : Type} {p : α → Prop} {as : List α} {a b : α}

/-- An element is the first one of a list with a property. -/
def IsFirst (p : α → Prop) (as : List α) (a : α) : Prop :=
  p a ∧ ∃ before after, as = before ++ a :: after ∧ ∀ x ∈ before, ¬ p x

/-- An element is the last one of a list with a property. -/
def IsLast (p : α → Prop) (as : List α) (a : α) : Prop :=
  p a ∧ ∃ before after, as = before ++ a :: after ∧ ∀ x ∈ after, ¬ p x

theorem isFirst_iff_find? [DecidablePred p] :
    IsFirst p as a ↔ as.find? (fun x => decide (p x)) = some a := by
  simp [IsFirst, List.find?_eq_some_iff_append]

/-- The last element of a list is the first one from the other side. -/
theorem isLast_iff_reverse : IsLast p as a ↔ IsFirst p as.reverse a := by
  refine and_congr_right fun _ => ?_
  constructor
  · rintro ⟨before, after, rfl, hafter⟩
    exact ⟨after.reverse, before.reverse, by simp, by simpa using hafter⟩
  · rintro ⟨before, after, has, hbefore⟩
    exact ⟨after.reverse, before.reverse, by simpa using congrArg List.reverse has,
      by simpa using hbefore⟩

theorem isLast_iff_find? [DecidablePred p] :
    IsLast p as a ↔ as.reverse.find? (fun x => decide (p x)) = some a := by
  rw [isLast_iff_reverse, isFirst_iff_find?]

theorem IsFirst.mem (h : IsFirst p as a) : a ∈ as := by
  obtain ⟨-, before, after, rfl, -⟩ := h
  exact List.mem_append_cons_self

theorem IsLast.mem (h : IsLast p as a) : a ∈ as :=
  List.mem_reverse.1 (isLast_iff_reverse.1 h).mem

theorem IsFirst.unique (ha : IsFirst p as a) (hb : IsFirst p as b) : a = b := by
  classical
  exact Option.some.inj ((isFirst_iff_find?.1 ha).symm.trans (isFirst_iff_find?.1 hb))

theorem IsLast.unique (ha : IsLast p as a) (hb : IsLast p as b) : a = b :=
  (isLast_iff_reverse.1 ha).unique (isLast_iff_reverse.1 hb)

/-- The last element with a property is the last one with any narrower property that it has. -/
theorem IsLast.narrow {q : α → Prop} (h : IsLast p as a) (hq : q a) (hqp : ∀ x, q x → p x) :
    IsLast q as a := by
  obtain ⟨-, before, after, has, hafter⟩ := h
  exact ⟨hq, before, after, has, fun x hx hqx => hafter x hx (hqp x hqx)⟩

/-- Where an element has a property, there is a first one. -/
theorem exists_isFirst (ha : a ∈ as) (hp : p a) : ∃ b, IsFirst p as b := by
  classical
  have hsome : (as.find? fun x => decide (p x)).isSome = true :=
    List.find?_isSome.2 ⟨a, ha, decide_eq_true hp⟩
  obtain ⟨b, hb⟩ := Option.isSome_iff_exists.1 hsome
  exact ⟨b, isFirst_iff_find?.2 hb⟩

theorem exists_isLast (ha : a ∈ as) (hp : p a) : ∃ b, IsLast p as b := by
  obtain ⟨b, hb⟩ := exists_isFirst (List.mem_reverse.2 ha) hp
  exact ⟨b, isLast_iff_reverse.2 hb⟩

/-- The last element of a list with one more behind it. -/
theorem isLast_concat {x : α} :
    IsLast p (as ++ [x]) a ↔ (p x ∧ x = a) ∨ (¬ p x ∧ IsLast p as a) := by
  classical
  by_cases hx : p x <;> simp [isLast_iff_find?, hx]

theorem isFirst_map {f : β → α} {bs : List β} :
    IsFirst p (bs.map f) a ↔ ∃ b, IsFirst (fun b => p (f b)) bs b ∧ f b = a := by
  classical
  simp only [isFirst_iff_find?, List.find?_map, Option.map_eq_some_iff]
  rfl

theorem isLast_map {f : β → α} {bs : List β} :
    IsLast p (bs.map f) a ↔ ∃ b, IsLast (fun b => p (f b)) bs b ∧ f b = a := by
  simp only [isLast_iff_reverse, ← List.map_reverse, isFirst_map]

/-- The first element of lists one after another is in the first list that has one. -/
theorem IsFirst.flatMap {f : β → List α} {bs : List β} (h : IsFirst p (bs.flatMap f) a) :
    ∃ b, IsFirst (fun b => ∃ x ∈ f b, p x) bs b ∧ IsFirst p (f b) a := by
  classical
  rw [isFirst_iff_find?, List.find?_flatMap, List.findSome?_eq_some_iff] at h
  obtain ⟨before, b, after, rfl, hfound, hnone⟩ := h
  have hfirst := isFirst_iff_find?.2 hfound
  refine ⟨b, ⟨⟨a, hfirst.mem, hfirst.1⟩, before, after, rfl, ?_⟩, hfirst⟩
  rintro c hc ⟨x, hx, hpx⟩
  exact absurd (decide_eq_true hpx) (List.find?_eq_none.1 (hnone c hc) x hx)

theorem IsLast.flatMap {f : β → List α} {bs : List β} (h : IsLast p (bs.flatMap f) a) :
    ∃ b, IsLast (fun b => ∃ x ∈ f b, p x) bs b ∧ IsLast p (f b) a := by
  rw [isLast_iff_reverse, List.reverse_flatMap] at h
  obtain ⟨b, hb, ha⟩ := h.flatMap
  refine ⟨b, isLast_iff_reverse.2 ?_, isLast_iff_reverse.2 ha⟩
  simpa using hb

end

namespace Table

variable {κ α : Type} [DecidableEq κ] {key : κ} {value : α} {e : κ × α} {t entries : List (κ × α)}

theorem mem_put (h : e ∈ put key value t) : e = (key, value) ∨ e ∈ t := by
  induction t with
  | nil => exact .inl (List.mem_singleton.1 h)
  | cons f t ih =>
    rw [put] at h
    split at h
    · next hkey =>
      rcases List.mem_cons.1 h with rfl | h
      · exact .inl (by rw [hkey])
      · exact .inr (List.mem_cons_of_mem f h)
    · rcases List.mem_cons.1 h with rfl | h
      · exact .inr List.mem_cons_self
      · exact (ih h).imp_right (List.mem_cons_of_mem f)

theorem mem_keep (h : e ∈ keep key value t) : e = (key, value) ∨ e ∈ t := by
  induction t with
  | nil => exact .inl (List.mem_singleton.1 h)
  | cons f t ih =>
    rw [keep] at h
    split at h
    · exact .inr h
    · rcases List.mem_cons.1 h with rfl | h
      · exact .inr List.mem_cons_self
      · exact (ih h).imp_right (List.mem_cons_of_mem f)

omit [DecidableEq κ] in
/-- What entries add to a table one after another is among them. -/
theorem mem_foldl {enter : κ → α → List (κ × α) → List (κ × α)}
    (henter : ∀ key value t, e ∈ enter key value t → e = (key, value) ∨ e ∈ t)
    (h : e ∈ entries.foldl (fun t e => enter e.1 e.2 t) t) : e ∈ entries ∨ e ∈ t := by
  induction entries generalizing t with
  | nil => exact .inr h
  | cons f entries ih =>
    rcases ih h with h | h
    · exact .inl (List.mem_cons_of_mem f h)
    · rcases henter f.1 f.2 t h with rfl | h
      · exact .inl List.mem_cons_self
      · exact .inr h

theorem mem_ofLast (h : e ∈ ofLast entries) : e ∈ entries :=
  (mem_foldl (fun _ _ _ => mem_put) h).resolve_right List.not_mem_nil

theorem mem_ofFirst (h : e ∈ ofFirst entries) : e ∈ entries :=
  (mem_foldl (fun _ _ _ => mem_keep) h).resolve_right List.not_mem_nil

/-- What is found under a key was entered with it. -/
theorem mem_of_get? (h : get? key t = some value) : (key, value) ∈ t := by
  induction t with
  | nil => cases h
  | cons f t ih =>
    rw [get?] at h
    split at h
    · next hkey =>
      rw [← hkey, ← Option.some.inj h]
      exact List.mem_cons_self
    · exact List.mem_cons_of_mem f (ih h)

/-! ## What is found under a key -/

theorem get?_foldl_put (key : κ) (entries t : List (κ × α)) :
    get? key (entries.foldl (fun t e => put e.1 e.2 t) t) =
      ((entries.reverse.find? fun e => decide (e.1 = key)).map Prod.snd).or (get? key t) := by
  induction entries generalizing t with
  | nil => rfl
  | cons e entries ih =>
    rw [List.foldl_cons, ih, get?_put, List.reverse_cons, List.find?_append]
    cases entries.reverse.find? fun e => decide (e.1 = key) with
    | some f => rfl
    | none => by_cases hkey : e.1 = key <;> simp [hkey]

theorem get?_foldl_keep (key : κ) (entries t : List (κ × α)) :
    get? key (entries.foldl (fun t e => keep e.1 e.2 t) t) =
      (get? key t).or ((entries.find? fun e => decide (e.1 = key)).map Prod.snd) := by
  induction entries generalizing t with
  | nil => simp
  | cons e entries ih =>
    rw [List.foldl_cons, ih, get?_keep, List.find?_cons]
    by_cases hkey : e.1 = key <;> simp [hkey]

/-- The value of the last entry with a key. -/
theorem get?_ofLast : get? key (ofLast entries) = some value ↔
    ∃ e, IsLast (fun e => e.1 = key) entries e ∧ e.2 = value := by
  simp [ofLast, get?_foldl_put, get?, isLast_iff_find?]

/-- The value of the first entry with a key. -/
theorem get?_ofFirst : get? key (ofFirst entries) = some value ↔
    ∃ e, IsFirst (fun e => e.1 = key) entries e ∧ e.2 = value := by
  simp [ofFirst, get?_foldl_keep, get?, isFirst_iff_find?]

/-! ## Keys that are all different -/

theorem nodup_keys_put (h : (t.map Prod.fst).Nodup) : ((put key value t).map Prod.fst).Nodup := by
  rw [keys_put]
  split
  · exact h
  · next hkey =>
    refine List.nodup_append.2 ⟨h, by simp, fun k hk l hl => ?_⟩
    obtain rfl := List.mem_singleton.1 hl
    exact fun heq => hkey (heq ▸ hk)

theorem nodup_keys_ofLast : ((ofLast entries).map Prod.fst).Nodup := by
  unfold ofLast
  induction entries using List.reverseRecOn with
  | nil => exact List.nodup_nil
  | append_singleton entries e ih =>
    rw [List.foldl_append]
    exact nodup_keys_put ih

theorem nodup_keys_keep (h : (t.map Prod.fst).Nodup) : ((keep key value t).map Prod.fst).Nodup := by
  rw [keys_keep]
  split
  · exact h
  · next hkey =>
    refine List.nodup_append.2 ⟨h, by simp, fun k hk l hl => ?_⟩
    obtain rfl := List.mem_singleton.1 hl
    exact fun heq => hkey (heq ▸ hk)

theorem nodup_keys_ofFirst : ((ofFirst entries).map Prod.fst).Nodup := by
  unfold ofFirst
  induction entries using List.reverseRecOn with
  | nil => exact List.nodup_nil
  | append_singleton entries e ih =>
    rw [List.foldl_append]
    exact nodup_keys_keep ih

/-! ## The order of keys -/

/-- A repeated key at the end changes nothing about which keys come first. -/
theorem eraseDups_concat (ks : List κ) (k : κ) :
    (ks ++ [k]).eraseDups = if k ∈ ks then ks.eraseDups else ks.eraseDups ++ [k] := by
  rw [List.eraseDups_append]
  by_cases hk : k ∈ ks <;> simp [List.removeAll, hk, List.eraseDups_cons]

/-- Keys that are entered one after another, at the end unless they are there, stand in the order of
their first occurrences. -/
theorem keys_foldl {β : Type} {enter : List (κ × α) → β → List (κ × α)} {keyOf : β → κ}
    (henter : ∀ t b, (enter t b).map Prod.fst =
      if keyOf b ∈ t.map Prod.fst then t.map Prod.fst else t.map Prod.fst ++ [keyOf b])
    (bs : List β) : (bs.foldl enter []).map Prod.fst = (bs.map keyOf).eraseDups := by
  induction bs using List.reverseRecOn with
  | nil => rfl
  | append_singleton bs b ih =>
    rw [List.foldl_append, List.foldl_cons, List.foldl_nil, henter, ih, List.map_append,
      List.map_singleton, eraseDups_concat]
    simp only [List.mem_eraseDups]

/-- The keys of a table stand where they first occur among its entries. -/
theorem keys_ofLast : (ofLast entries).map Prod.fst = (entries.map Prod.fst).eraseDups :=
  keys_foldl (fun t e => keys_put e.1 e.2 t) entries

theorem keys_ofFirst : (ofFirst entries).map Prod.fst = (entries.map Prod.fst).eraseDups :=
  keys_foldl (fun t e => keys_keep e.1 e.2 t) entries

/-- What comes first stays first under a function that tells elements apart. -/
theorem eraseDups_map {β : Type} [DecidableEq β] {f : β → κ} (hf : Function.Injective f)
    (bs : List β) : (bs.map f).eraseDups = bs.eraseDups.map f := by
  induction bs using List.reverseRecOn with
  | nil => rfl
  | append_singleton bs b ih =>
    have hmem : f b ∈ bs.map f ↔ b ∈ bs := by simp [hf.eq_iff]
    rw [List.map_append, List.map_singleton, eraseDups_concat, eraseDups_concat, ih]
    simp only [hmem]
    split
    · rfl
    · rw [List.map_append, List.map_singleton]

/-- A new key is entered at the end. -/
theorem put_of_not_mem (h : key ∉ t.map Prod.fst) : put key value t = t ++ [(key, value)] := by
  induction t with
  | nil => rfl
  | cons f t ih =>
    rw [List.map_cons, List.mem_cons, not_or] at h
    rw [put, if_neg (Ne.symm h.1), ih h.2, List.cons_append]

/-- Entries whose keys are all different are their table. -/
theorem ofLast_eq_self (h : (entries.map Prod.fst).Nodup) : ofLast entries = entries := by
  unfold ofLast
  induction entries using List.reverseRecOn with
  | nil => rfl
  | append_singleton entries e ih =>
    rw [List.map_append, List.nodup_append] at h
    have hnew : e.1 ∉ entries.map Prod.fst := fun hmem => h.2.2 _ hmem _ (by simp) rfl
    rw [List.foldl_append, ih h.1]
    exact put_of_not_mem hnew

/-- Where all keys are different, every entry is found under its key. -/
theorem mem_iff_get? (h : (t.map Prod.fst).Nodup) :
    (key, value) ∈ t ↔ get? key t = some value := by
  refine ⟨fun hmem => ?_, mem_of_get?⟩
  induction t with
  | nil => cases hmem
  | cons f t ih =>
    rw [List.map_cons, List.nodup_cons] at h
    rw [get?]
    rcases List.mem_cons.1 hmem with rfl | hmem
    · exact if_pos rfl
    · rw [if_neg, ih h.2 hmem]
      intro hkey
      exact h.1 (hkey ▸ List.mem_map_of_mem (f := Prod.fst) hmem)

/-! ## Tables of elements by a key -/

section

variable {β : Type} {keyOf : β → κ} {bs : List β} {b : β}

theorem keys_ofLast_map :
    (ofLast (bs.map fun b => (keyOf b, b))).map Prod.fst = (bs.map keyOf).eraseDups := by
  rw [keys_ofLast, List.map_map]
  rfl

theorem keys_ofFirst_map :
    (ofFirst (bs.map fun b => (keyOf b, b))).map Prod.fst = (bs.map keyOf).eraseDups := by
  rw [keys_ofFirst, List.map_map]
  rfl

/-- A table by a key in which the last entry counts holds the last element of each key. -/
theorem mem_ofLast_map :
    (key, b) ∈ ofLast (bs.map fun b => (keyOf b, b)) ↔ IsLast (fun b => keyOf b = key) bs b := by
  rw [mem_iff_get? nodup_keys_ofLast, get?_ofLast]
  simp [isLast_map]

/-- A table by a key in which the first entry counts holds the first element of each key. -/
theorem mem_ofFirst_map :
    (key, b) ∈ ofFirst (bs.map fun b => (keyOf b, b)) ↔ IsFirst (fun b => keyOf b = key) bs b := by
  rw [mem_iff_get? nodup_keys_ofFirst, get?_ofFirst]
  simp [isFirst_map]

end

end Table

end Nanoservice
