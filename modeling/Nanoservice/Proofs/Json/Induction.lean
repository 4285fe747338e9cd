import Nanoservice.Json.Basic

/-!
# Induction over JSON values

A property of JSON values holds of all when it holds of every value without parts, of an array whose
items have it, and of an object whose values have it (`Json.ofParts`). The functions that walk
through a value walk through its items and fields by functions of their own, so a fact about one of
them is stated with a fact about its items and its fields, as `∀ v ∈ vs` and `∀ f ∈ fs`, and is then
proved by this one induction. -/

namespace Nanoservice.Json

variable {motive : Json → Prop}

/-- A property that an array and an object take over from their parts, and every other value has. -/
@[elab_as_elim] theorem ofParts (v : Json) (null : motive .null) (bool : ∀ b, motive (.bool b))
    (int : ∀ n, motive (.int n)) (float : ∀ x, motive (.float x)) (str : ∀ s, motive (.str s))
    (broken : ∀ symbols, motive (.broken symbols))
    (arr : ∀ vs, (∀ v ∈ vs, motive v) → motive (.arr vs))
    (obj : ∀ fs, (∀ f ∈ fs, motive f.2) → motive (.obj fs)) : motive v :=
  Json.rec (motive_1 := motive) (motive_2 := fun vs => ∀ v ∈ vs, motive v)
    (motive_3 := fun fs => ∀ f ∈ fs, motive f.2) (motive_4 := fun f => motive f.2)
    null bool int float str broken arr obj
    (fun _ h => absurd h List.not_mem_nil) (fun _ _ hv hvs => List.forall_mem_cons.2 ⟨hv, hvs⟩)
    (fun _ h => absurd h List.not_mem_nil) (fun _ _ hf hfs => List.forall_mem_cons.2 ⟨hf, hfs⟩)
    (fun _ _ hv => hv) v

end Nanoservice.Json
