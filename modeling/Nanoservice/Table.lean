/-!
# Tables

A table is a list of pairs in which each key occurs once. Keys keep the place of their first entry;
a later entry either takes over the value (`put`) or is dropped (`keep`).
-/

namespace Nanoservice.Table

variable {κ α : Type} [DecidableEq κ]

/-- Enters a value under a key: in place if the key is there, at the end if not. -/
def put (key : κ) (value : α) : List (κ × α) → List (κ × α)
  | [] => [(key, value)]
  | (k, v) :: rest => if k = key then (k, value) :: rest else (k, v) :: put key value rest

/-- Enters a value at the end under a key that is not there. -/
def keep (key : κ) (value : α) : List (κ × α) → List (κ × α)
  | [] => [(key, value)]
  | (k, v) :: rest => if k = key then (k, v) :: rest else (k, v) :: keep key value rest

/-- The value under a key. -/
def get? (key : κ) : List (κ × α) → Option α
  | [] => none
  | (k, v) :: rest => if k = key then some v else get? key rest

/-- The table of entries in which the last one of each key counts. -/
def ofLast (entries : List (κ × α)) : List (κ × α) :=
  entries.foldl (fun t e => put e.1 e.2 t) []

/-- The table of entries in which the first one of each key counts. -/
def ofFirst (entries : List (κ × α)) : List (κ × α) :=
  entries.foldl (fun t e => keep e.1 e.2 t) []

/-! ## What entering a value changes -/

theorem get?_put (key k : κ) (value : α) (t : List (κ × α)) :
    get? k (put key value t) = if key = k then some value else get? k t := by
  induction t with
  | nil => simp [put, get?]
  | cons e t ih => grind [put, get?]

theorem get?_keep (key k : κ) (value : α) (t : List (κ × α)) :
    get? k (keep key value t) = (get? k t).or (if key = k then some value else none) := by
  induction t with
  | nil => simp [keep, get?]
  | cons e t ih => grind [keep, get?]

theorem keys_put (key : κ) (value : α) (t : List (κ × α)) :
    (put key value t).map Prod.fst =
      if key ∈ t.map Prod.fst then t.map Prod.fst else t.map Prod.fst ++ [key] := by
  induction t with
  | nil => simp [put]
  | cons e t ih => grind [put]

theorem keys_keep (key : κ) (value : α) (t : List (κ × α)) :
    (keep key value t).map Prod.fst =
      if key ∈ t.map Prod.fst then t.map Prod.fst else t.map Prod.fst ++ [key] := by
  induction t with
  | nil => simp [keep]
  | cons e t ih => grind [keep]

end Nanoservice.Table
