import Nanoservice.Backend.Reading

/-!
# Laws of readings

A reading comes to a value or to a list of issues. The combinators that put the rules of a model
together are described here once from each side: when they come to a value (the `_eq_ok` lemmas),
and which issues they collect (the `issues_` and `mem_issues_` lemmas). The reading of a part of a
model is opened through these and not through the combinators' definitions.
-/

namespace Nanoservice

/-- A computation in two steps succeeds when both do. -/
theorem bind_eq_ok {ε α β : Type} {x : Except ε α} {f : α → Except ε β} {b : β} :
    (x >>= f) = .ok b ↔ ∃ a, x = .ok a ∧ f a = .ok b := by
  cases x <;> simp [Bind.bind, Except.bind]

namespace Reading

variable {α β γ : Type}

/-- The issues of a reading, none if it came to a value. -/
def issues : Reading α → List Issue
  | .ok _ => []
  | .error is => is

/-! ## Readings that come to a value -/

/-- A reading behind a step comes to the value that it comes to without the step. -/
@[simp] theorem under_eq_ok {s : Step} {r : Reading α} {a : α} :
    r.under s = .ok a ↔ r = .ok a := by
  cases r <;> simp [under]

/-- Two readings side by side come to a pair when both come to its halves. -/
@[simp] theorem both_eq_ok {x : Reading α} {y : Reading β} {p : α × β} :
    x.both y = .ok p ↔ x = .ok p.1 ∧ y = .ok p.2 := by
  cases x <;> cases y <;> simp [both, Prod.ext_iff]

/-- A mapped reading comes to an image of what the reading comes to. -/
@[simp] theorem map_eq_ok {f : α → β} {r : Reading α} {b : β} :
    Except.map f r = .ok b ↔ ∃ a, r = .ok a ∧ f a = b := by
  cases r <;> simp [Except.map]

/-- A reading mapped to the record of its fields comes to a record when it comes to the fields. -/
theorem map_record_eq_ok {f : α → β} {g : β → α} (hf : ∀ b, f (g b) = b) (hg : ∀ a, g (f a) = a)
    {r : Reading α} {b : β} : Except.map f r = .ok b ↔ r = .ok (g b) := by
  rw [map_eq_ok]
  constructor
  · rintro ⟨a, ha, rfl⟩
    rw [ha, hg]
  · exact fun h => ⟨g b, h, hf b⟩

/-- The items of a list come to values when the rule does so at each item. -/
theorem items_eq_ok {rule : Json → Reading α} {vs : List Json} {as : List α} {start : Nat} :
    items rule start vs = .ok as ↔ vs.map rule = as.map .ok := by
  induction vs generalizing start as with
  | nil => cases as <;> simp [items]
  | cons v vs ih =>
    cases as with
    | nil => simp [items]
    | cons a as => simp [items, ih]

/-- A list of parts is an array at each of whose items the rule comes to a value. -/
theorem list_eq_ok {rule : Json → Reading α} {v : Json} {as : List α} :
    list rule v = .ok as ↔ ∃ vs, v = .arr vs ∧ vs.map rule = as.map .ok := by
  cases v <;> simp [list, items_eq_ok, fail]

/-- A part is an object whose fields are read. -/
theorem part_eq_ok {kind : String} {read : List (RawText × Json) → Reading α} {v : Json} {a : α} :
    part kind read v = .ok a ↔ ∃ fs, v = .obj fs ∧ read fs = .ok a := by
  cases v <;> simp [part, fail]

/-- A mandatory field is there, and its rule comes to a value. -/
theorem mandatory_eq_ok {rule : Json → Reading α} {key : String} {fs : List (RawText × Json)}
    {a : α} :
    mandatory rule key fs = .ok a ↔ ∃ v, fs.lookup (.plain key) = some v ∧ rule v = .ok a := by
  unfold mandatory
  cases fs.lookup (.plain key) <;> simp [fail]

/-- An optional field has its default when it is missing. -/
theorem optional_eq_ok {rule : Json → Reading α} {default a : α} {key : String}
    {fs : List (RawText × Json)} :
    optional rule default key fs = .ok a ↔
      (∃ v, fs.lookup (.plain key) = some v ∧ rule v = .ok a) ∨
        (fs.lookup (.plain key) = none ∧ a = default) := by
  unfold optional
  cases fs.lookup (.plain key) with
  | some v => simp
  | none => simp [eq_comm]

/-- A property that the rule's values have is one of every item of a list that was read. -/
theorem forall_of_map_eq_ok {rule : Json → Reading α} {vs : List Json} {as : List α}
    {P : α → Prop} (hP : ∀ v a, rule v = .ok a → P a) (h : vs.map rule = as.map .ok) :
    ∀ a ∈ as, P a := by
  intro a ha
  have hmem : Except.ok a ∈ vs.map rule := h ▸ List.mem_map_of_mem ha
  obtain ⟨v, -, hv⟩ := List.mem_map.1 hmem
  exact hP v a hv

/-- A property of all values of a rule, and of its default, is one of an optional field. -/
theorem of_optional_eq_ok {rule : Json → Reading α} {default a : α} {key : String}
    {fs : List (RawText × Json)} {P : α → Prop} (hd : P default)
    (hP : ∀ v a, rule v = .ok a → P a) (h : optional rule default key fs = .ok a) : P a := by
  rcases optional_eq_ok.1 h with ⟨v, -, hv⟩ | ⟨-, rfl⟩
  · exact hP v a hv
  · exact hd

/-- A property of all values of a rule is one of every item of an optional list. -/
theorem forall_of_optional_list_eq_ok {rule : Json → Reading α} {as : List α} {key : String}
    {fs : List (RawText × Json)} {P : α → Prop} (hP : ∀ v a, rule v = .ok a → P a)
    (h : optional (list rule) [] key fs = .ok as) : ∀ a ∈ as, P a := by
  refine of_optional_eq_ok (P := fun as => ∀ a ∈ as, P a) (by simp) (fun v as hv => ?_) h
  obtain ⟨vs, -, hvs⟩ := list_eq_ok.1 hv
  exact forall_of_map_eq_ok hP hvs

/-! ## The issues that readings collect -/

@[simp] theorem issues_ok (a : α) : issues (.ok a) = [] := rfl

@[simp] theorem issues_error (is : List Issue) : issues (.error is : Reading α) = is := rfl

@[simp] theorem issues_fail (flaw : Flaw) : (fail flaw : Reading α).issues = [⟨[], flaw⟩] := rfl

@[simp] theorem issues_under (s : Step) (r : Reading α) :
    (r.under s).issues = r.issues.map (Issue.under s) := by
  cases r <;> simp [under]

@[simp] theorem issues_both (x : Reading α) (y : Reading β) :
    (x.both y).issues = x.issues ++ y.issues := by
  cases x <;> cases y <;> simp [both]

@[simp] theorem issues_map (f : α → β) (r : Reading α) :
    Reading.issues (Except.map f r) = r.issues := by
  cases r <;> simp [Except.map]

/-- The issues of list items lie behind the items' indices. -/
theorem mem_issues_items {rule : Json → Reading α} {vs : List Json} {start : Nat} {i : Issue} :
    i ∈ (items rule start vs).issues ↔
      ∃ n v, vs[n]? = some v ∧ ∃ j ∈ (rule v).issues, i = j.under (.index (start + n)) := by
  induction vs generalizing start with
  | nil => simp [items]
  | cons v vs ih =>
    simp only [items, issues_map, issues_both, issues_under, List.mem_append, List.mem_map, ih]
    constructor
    · rintro (⟨j, hj, rfl⟩ | ⟨n, w, hw, j, hj, rfl⟩)
      · exact ⟨0, v, rfl, j, hj, rfl⟩
      · exact ⟨n + 1, w, by simpa using hw, j, hj,
          by rw [show start + (n + 1) = start + 1 + n by omega]⟩
    · rintro ⟨n, w, hw, j, hj, rfl⟩
      cases n with
      | zero =>
        obtain rfl : v = w := by simpa using hw
        exact .inl ⟨j, hj, rfl⟩
      | succ n =>
        exact .inr ⟨n, w, by simpa using hw, j, hj,
          by rw [show start + (n + 1) = start + 1 + n by omega]⟩

/-- The issues of a list of parts: it is no array, or they lie behind the items' indices. -/
theorem mem_issues_list {rule : Json → Reading α} {v : Json} {i : Issue} :
    i ∈ (list rule v).issues ↔ ((∀ vs, v ≠ .arr vs) ∧ i = ⟨[], .notList⟩) ∨
      ∃ vs n w, v = .arr vs ∧ vs[n]? = some w ∧
        ∃ j ∈ (rule w).issues, i = j.under (.index n) := by
  cases v <;> simp [list, mem_issues_items]

/-- The issues of a part: it is no object, or they are those of its fields. -/
theorem mem_issues_part {kind : String} {read : List (RawText × Json) → Reading α} {v : Json}
    {i : Issue} :
    i ∈ (part kind read v).issues ↔ ((∀ fs, v ≠ .obj fs) ∧ i = ⟨[], .notPart kind⟩) ∨
      ∃ fs, v = .obj fs ∧ i ∈ (read fs).issues := by
  cases v <;> simp [part]

/-- The issues of a mandatory field: it is missing, or they are those of its value. -/
theorem mem_issues_mandatory {rule : Json → Reading α} {key : String}
    {fs : List (RawText × Json)} {i : Issue} :
    i ∈ (mandatory rule key fs).issues ↔
      (fs.lookup (.plain key) = none ∧ i = ⟨[.key key], .missing⟩) ∨
      ∃ v, fs.lookup (.plain key) = some v ∧ ∃ j ∈ (rule v).issues, i = j.under (.key key) := by
  unfold mandatory
  cases fs.lookup (.plain key) <;> simp [Issue.under, eq_comm]

/-- The issues of an optional field are those of its value. -/
theorem mem_issues_optional {rule : Json → Reading α} {default : α} {key : String}
    {fs : List (RawText × Json)} {i : Issue} :
    i ∈ (optional rule default key fs).issues ↔
      ∃ v, fs.lookup (.plain key) = some v ∧ ∃ j ∈ (rule v).issues, i = j.under (.key key) := by
  unfold optional
  cases fs.lookup (.plain key) <;> simp [eq_comm]

end Reading

end Nanoservice
