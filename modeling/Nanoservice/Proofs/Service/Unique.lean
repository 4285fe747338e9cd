import Mathlib.Order.Bounds.Defs
import Nanoservice.Proofs.Service.Name

/-!
# The search for unused names

A name is made unique by a search: the base itself is tried first, and then the base with one number
after the other behind it, from two on. `Finds` is this search round by round, with no bound on the
rounds. It ends for every base, after no more rounds than there are used names (`finds_unique`,
`Finds.rounds_le`), for the candidates that it tries are distinct.

Names that are made unique one after the other are found in the same way, each with those before it
among the used ones (`getElem?_uniqueAll`).
-/

namespace Nanoservice.Name

variable {used : Finset String} {base : String}

/-- The search for a name that is not used. A candidate that is not used is found; a used one gives
way to the base with the next number, and the rounds count how often. -/
inductive Finds (used : Finset String) (base : String) : String → Nat → Nat → String → Prop
  | free {c : String} {next : Nat} : c ∉ used → Finds used base c next 0 c
  | taken {c name : String} {next rounds : Nat} : c ∈ used →
      Finds used base (numbered base next) (next + 1) rounds name →
      Finds used base c next (rounds + 1) name

/-- The candidates for a base in the order in which they are tried. -/
def candidate (base : String) : Nat → String
  | 0 => base
  | i + 1 => numbered base (i + 2)

/-! ## One search -/

/-- A number behind a base makes another name of it. -/
theorem numbered_ne (base : String) (n : Nat) : numbered base n ≠ base := by
  intro h
  have hlength := congrArg String.length h
  rw [numbered, String.length_append, String.length_append] at hlength
  have hone : "_".length = 1 := rfl
  omega

theorem candidate_injective (base : String) : Function.Injective (candidate base) := by
  intro i j h
  cases i with
  | zero =>
    cases j with
    | zero => rfl
    | succ j => exact absurd h.symm (numbered_ne base (j + 2))
  | succ i =>
    cases j with
    | zero => exact absurd h (numbered_ne base (i + 2))
    | succ j =>
      have hnumber := numbered_injective base h
      omega

/-- A round goes on from a used candidate to the next one. -/
theorem finds_succ_iff {i rounds : Nat} {name : String} :
    Finds used base (candidate base i) (i + 2) (rounds + 1) name ↔
      candidate base i ∈ used ∧
        Finds used base (candidate base (i + 1)) (i + 1 + 2) rounds name := by
  constructor
  · rintro (_ | ⟨hused, hrest⟩)
    exact ⟨hused, hrest⟩
  · rintro ⟨hused, hrest⟩
    exact .taken hused hrest

/-- A search finds the first candidate that is not used, and its rounds are the candidates before
that one. -/
theorem finds_iff {i rounds : Nat} {name : String} :
    Finds used base (candidate base i) (i + 2) rounds name ↔
      (∀ j < rounds, candidate base (i + j) ∈ used) ∧ candidate base (i + rounds) ∉ used ∧
        name = candidate base (i + rounds) := by
  -- The candidate and the next number go up together, so the search may start anywhere.
  induction rounds generalizing i with
  | zero =>
    constructor
    · rintro ⟨hfree⟩
      exact ⟨nofun, hfree, rfl⟩
    · rintro ⟨-, hfree, rfl⟩
      exact .free hfree
  | succ rounds ih =>
    rw [finds_succ_iff, ih, Nat.forall_lt_succ_left, and_assoc]
    simp only [Nat.add_zero, Nat.add_assoc, Nat.add_comm 1]

/-- A search finds one name only. -/
theorem Finds.functional {c name name' : String} {next rounds rounds' : Nat}
    (h : Finds used base c next rounds name) (h' : Finds used base c next rounds' name') :
    name = name' := by
  induction h generalizing rounds' with
  | free hfree =>
    cases h' with
    | free => rfl
    | taken hused => exact absurd hused hfree
  | taken hused _ ih =>
    cases h' with
    | free hfree => exact absurd hused hfree
    | taken _ hrest => exact ih hrest

/-- A search takes no more rounds than there are used names. -/
theorem Finds.rounds_le {rounds : Nat} {name : String}
    (h : Finds used base base 2 rounds name) : rounds ≤ used.card := by
  obtain ⟨hused, -, -⟩ := (finds_iff (i := 0)).1 h
  refine Finset.le_card_of_inj_on_range (candidate base) (fun j hj => ?_) fun i _ j _ hij =>
    candidate_injective base hij
  rw [← Nat.zero_add j]
  exact hused j hj

/-- Every search ends, and at the unique name. -/
theorem finds_unique (used : List String) (base : String) :
    ∃ rounds, Finds used.toFinset base base 2 rounds (unique used base) := by
  rcases unique_cases used base with ⟨hfree, h⟩ | ⟨hused, i, h, hfree, hbefore⟩
  · rw [h]
    exact ⟨0, .free (mt List.mem_toFinset.1 hfree)⟩
  · refine ⟨i + 1, (finds_iff (i := 0)).2 ⟨fun j hj => ?_, ?_, ?_⟩⟩
    · rw [Nat.zero_add, List.mem_toFinset]
      cases j with
      | zero => exact hused
      | succ j => exact hbefore j (by omega)
    · rw [Nat.zero_add, List.mem_toFinset]
      exact hfree
    · rw [Nat.zero_add]
      exact h

/-- A name is what the search for a base among used names gives: the search ends there and nowhere
else, and the name is the base itself or the base with the least number from two on that is free. -/
structure IsFirstFree (used : Finset String) (base name : String) : Prop where
  ends : ∃ rounds ≤ used.card, Finds used base base 2 rounds name
  only : ∀ rounds other, Finds used base base 2 rounds other → other = name
  kept : base ∉ used → name = base
  least : base ∈ used →
    ∃ k, IsLeast {k | 2 ≤ k ∧ numbered base k ∉ used} k ∧ name = numbered base k

/-- A unique name is the first one that is free. -/
theorem isFirstFree_unique (used : List String) (base : String) :
    IsFirstFree used.toFinset base (unique used base) := by
  obtain ⟨rounds, hfinds⟩ := finds_unique used base
  have hends : ∃ rounds ≤ used.toFinset.card,
      Finds used.toFinset base base 2 rounds (unique used base) :=
    ⟨rounds, hfinds.rounds_le, hfinds⟩
  have honly : ∀ rounds other, Finds used.toFinset base base 2 rounds other →
      other = unique used base := fun _ _ h => h.functional hfinds
  rcases unique_cases used base with ⟨hbase, h⟩ | ⟨hbase, i, h, hfree, hbefore⟩
  · exact ⟨hends, honly, fun _ => h, fun hused => absurd (List.mem_toFinset.1 hused) hbase⟩
  · refine ⟨hends, honly, fun hfree => absurd (List.mem_toFinset.2 hbase) hfree, fun _ => ?_⟩
    refine ⟨i + 2, ⟨⟨Nat.le_add_left 2 i, mt List.mem_toFinset.1 hfree⟩, ?_⟩, h⟩
    rintro k ⟨hk, hkfree⟩
    obtain ⟨j, rfl⟩ := Nat.exists_eq_add_of_le' hk
    by_contra hlt
    exact hkfree (List.mem_toFinset.2 (hbefore j (by omega)))

/-! ## One search for each base -/

/-- A unique name is found among the names used at first and those found before it. -/
theorem getElem?_uniqueAll (used bases : List String) (i : Nat) :
    (uniqueAll used bases).1[i]? =
      bases[i]?.map (unique (used ++ (uniqueAll used bases).1.take i)) := by
  induction bases generalizing used i with
  | nil => rfl
  | cons base bases ih =>
    cases i with
    | zero => simp [uniqueAll]
    | succ i =>
      have hstep : used ++ (uniqueAll used (base :: bases)).1.take (i + 1) =
          used ++ [unique used base] ++
            (uniqueAll (used ++ [unique used base]) bases).1.take i := by
        simp [uniqueAll]
      rw [hstep, List.getElem?_cons_succ, ← ih]
      rfl

/-- The names used afterwards are those used at first and the unique ones. -/
theorem used_uniqueAll (used bases : List String) :
    (uniqueAll used bases).2 = used ++ (uniqueAll used bases).1 := by
  induction bases generalizing used with
  | nil => simp [uniqueAll]
  | cons base bases ih =>
    rw [uniqueAll, ih]
    simp

/-- The names for bases in order, each the first that is free of the names used at first and those
before it, and the names used afterwards. -/
structure AreFirstFree (used : Finset String) (bases names : List String)
    (after : Finset String) : Prop where
  length : names.length = bases.length
  each : ∀ i base, bases[i]? = some base →
    ∃ name, names[i]? = some name ∧ IsFirstFree (used ∪ (names.take i).toFinset) base name
  nodup : names.Nodup
  fresh : ∀ name ∈ names, name ∉ used
  after_eq : after = used ∪ names.toFinset

/-- Unique names are the first that are free. -/
theorem uniqueAll_areFirstFree (used bases : List String) :
    AreFirstFree used.toFinset bases (uniqueAll used bases).1
      (uniqueAll used bases).2.toFinset := by
  obtain ⟨hlength, hnodup, hfresh⟩ := uniqueAll_spec used bases
  refine ⟨hlength, fun i base hbase => ?_, hnodup, fun name hname => ?_, ?_⟩
  · rw [← List.toFinset_append]
    refine ⟨_, ?_, isFirstFree_unique _ base⟩
    rw [getElem?_uniqueAll, hbase, Option.map_some]
  · rw [List.mem_toFinset]
    exact hfresh name hname
  · rw [used_uniqueAll, List.toFinset_append]

example : uniqueAll ["a_2"] ["a", "a", "a_2"] =
    (["a", "a_3", "a_2_2"], ["a_2", "a", "a_3", "a_2_2"]) := by
  decide +kernel

end Nanoservice.Name
