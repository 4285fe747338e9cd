import Mathlib.Data.List.Induction
import Mathlib.Data.List.Nodup
import Nanoservice.Proofs.Job.Record

/-!
# Eviction of finished jobs

Records are added to a registry and changed, in any order and as often as one likes. An addition may
drop records of finished jobs, the oldest first, as many as there are too many or as there are
(`Registry.evicts_add`); a change keeps what is held. So jobs that are not finished stay, whatever
the limit is, and what was dropped never comes back: the identities that are held and those that
were dropped are together those that were added (`Registry.ids_run_perm`), each of them once.
-/

namespace Nanoservice

namespace Registry

open scoped List

/-! ## Splitting off finished jobs -/

/-- The first finished jobs are split off. -/
theorem splitFinished_off (n : Nat) (js : List Job) :
    (splitFinished n js).2 = (js.filter Job.isFinished).take n := by
  fun_induction splitFinished n js with
  | case1 js => rfl
  | case2 n => rw [List.filter_nil, List.take_nil]
  | case3 n j js hj stay off hsplit ih =>
    rw [hsplit] at ih
    rw [List.filter_cons_of_pos hj, List.take_succ_cons, ← ih]
  | case4 n j js hj stay off hsplit ih =>
    rw [hsplit] at ih
    rw [List.filter_cons_of_neg hj, ← ih]

/-- Jobs that are split off are finished ones. -/
theorem mem_of_mem_off {n : Nat} {js : List Job} {j : Job} (h : j ∈ (splitFinished n js).2) :
    j ∈ js ∧ j.isFinished = true := by
  rw [splitFinished_off] at h
  exact List.mem_filter.1 (List.mem_of_mem_take h)

/-- The jobs that are not split off stay, in order. -/
theorem splitFinished_stay (n : Nat) {js : List Job} (hjs : js.Nodup) :
    (splitFinished n js).1 = js.filter fun j => j ∉ (splitFinished n js).2 := by
  fun_induction splitFinished n js with
  | case1 js => simp
  | case2 n => rfl
  | case3 n j js hj stay off hsplit ih =>
    obtain ⟨hfresh, hnodup⟩ := List.nodup_cons.1 hjs
    have ih := ih hnodup
    rw [hsplit] at ih
    have hrest : (js.filter fun i => i ∉ j :: off) = js.filter fun i => i ∉ off :=
      List.filter_congr fun i hi => by
        have hne : i ≠ j := fun he => hfresh (he ▸ hi)
        simp [hne]
    rw [List.filter_cons_of_neg (by simp), hrest, ← ih]
  | case4 n j js hj stay off hsplit ih =>
    have ih := ih (List.nodup_cons.1 hjs).2
    rw [hsplit] at ih
    have hoff : j ∉ off := fun h => by
      have hmem : j ∈ (splitFinished (n + 1) js).2 := hsplit ▸ h
      exact hj (mem_of_mem_off hmem).2
    rw [List.filter_cons_of_pos (by simpa using hoff), ← ih]

theorem splitFinished_sublist (n : Nat) (js : List Job) : (splitFinished n js).1 <+ js := by
  fun_induction splitFinished n js with
  | case1 js => exact List.Sublist.refl js
  | case2 n => exact List.Sublist.refl []
  | case3 n j js hj stay off hsplit ih =>
    rw [hsplit] at ih
    exact ih.cons j
  | case4 n j js hj stay off hsplit ih =>
    rw [hsplit] at ih
    exact ih.cons_cons j

/-- No job is lost between those that stay and those that are split off. -/
theorem splitFinished_perm (n : Nat) (js : List Job) :
    (splitFinished n js).1 ++ (splitFinished n js).2 ~ js := by
  fun_induction splitFinished n js with
  | case1 js => rw [List.append_nil]
  | case2 n => rfl
  | case3 n j js hj stay off hsplit ih =>
    rw [hsplit] at ih
    exact List.perm_middle.trans (ih.cons j)
  | case4 n j js hj stay off hsplit ih =>
    rw [hsplit] at ih
    exact ih.cons j

/-! ## Additions -/

/-- All records, the dropped ones too. -/
def records (r : Registry) : List Job :=
  r.held ++ r.dropped

/-- The identities of all records. -/
def ids (r : Registry) : List String :=
  r.records.map Job.id

/-- The identities of the records that can be found. -/
def heldIds (r : Registry) : List String :=
  r.held.map Job.id

/-- The records that a new one drives out: the first finished ones, as many as there are too many
or as there are finished ones. -/
def evicted (r : Registry) (j : Job) : List Job :=
  let js := r.held ++ [j]
  (js.filter Job.isFinished).take (min (excess r.limit js) (js.countP Job.isFinished))

theorem add_eq (r : Registry) (j : Job) :
    r.add j =
      let split := splitFinished (excess r.limit (r.held ++ [j])) (r.held ++ [j])
      ⟨r.limit, split.1, r.dropped ++ split.2⟩ := rfl

/-- The records that are split off for a new one are those that it drives out. -/
theorem off_eq_evicted (r : Registry) (j : Job) :
    (splitFinished (excess r.limit (r.held ++ [j])) (r.held ++ [j])).2 = r.evicted j := by
  rw [splitFinished_off, evicted, List.countP_eq_length_filter]
  rcases Nat.le_total (excess r.limit (r.held ++ [j]))
    ((r.held ++ [j]).filter Job.isFinished).length with h | h
  · rw [Nat.min_eq_left h]
  · rw [Nat.min_eq_right h, List.take_of_length_le h, List.take_length]

/-- The registry after an addition has as many records as before and one, less those driven out. -/
theorem length_held_add (r : Registry) (j : Job) :
    (r.add j).held.length + (r.evicted j).length = (r.held ++ [j]).length := by
  rw [← off_eq_evicted, add_eq, ← List.length_append]
  exact (splitFinished_perm _ _).length_eq

/-- An addition keeps every job that is not finished. -/
theorem countP_held_add (r : Registry) (j : Job) :
    (r.add j).held.countP (fun i => !i.isFinished) =
      (r.held ++ [j]).countP fun i => !i.isFinished := by
  have hoff : (splitFinished (excess r.limit (r.held ++ [j])) (r.held ++ [j])).2.countP
      (fun i => !i.isFinished) = 0 :=
    List.countP_eq_zero.2 fun i hi => by simp [(mem_of_mem_off hi).2]
  have hperm := (splitFinished_perm (excess r.limit (r.held ++ [j])) (r.held ++ [j])).countP_eq
    fun i => !i.isFinished
  rw [List.countP_append, hoff, Nat.add_zero] at hperm
  exact hperm

/-- Above the limit there are only records of jobs that are not finished. -/
theorem length_held_add_le (r : Registry) (j : Job) :
    ((r.add j).held.length : Int) ≤
      max r.limit ((r.add j).held.countP fun i => !i.isFinished) := by
  have hlength := length_held_add r j
  have hsplit := List.length_eq_countP_add_countP Job.isFinished (l := r.held ++ [j])
  have hevicted : (r.evicted j).length =
      min (excess r.limit (r.held ++ [j])) ((r.held ++ [j]).countP Job.isFinished) := by
    rw [evicted, List.length_take, ← List.countP_eq_length_filter]
    omega
  rw [countP_held_add]
  simp only [excess, Bool.not_eq_true, Bool.decide_eq_false] at *
  omega

/-- What the addition of a record makes of a registry. -/
structure Evicts (r : Registry) (j : Job) (r' : Registry) : Prop where
  limit : r'.limit = r.limit
  /-- The records that were held and the new one stay, but for those driven out. -/
  held : r'.held = (r.held ++ [j]).filter fun i => i ∉ r.evicted j
  dropped : r'.dropped = r.dropped ++ r.evicted j
  /-- No record of a job that is not finished is lost. -/
  unfinished : ∀ i ∈ r.held ++ [j], i.isFinished = false → i ∈ r'.held
  /-- The new record is there, as the last one. -/
  last : r'.held.getLast? = some j
  /-- What is above the limit is not finished. -/
  length_le : (r'.held.length : Int) ≤ max r.limit (r'.held.countP fun i => !i.isFinished)

/-- A new record of a job that is not finished drives out the first finished ones. -/
theorem evicts_add {r : Registry} {j : Job} (hnodup : (r.held ++ [j]).Nodup)
    (hj : j.isFinished = false) : Evicts r j (r.add j) := by
  have hheld : (r.add j).held = (r.held ++ [j]).filter fun i => i ∉ r.evicted j := by
    simp only [add_eq]
    rw [splitFinished_stay _ hnodup, off_eq_evicted]
  have hkept {i : Job} (hi : i.isFinished = false) : i ∉ r.evicted j := by
    intro hmem
    rw [← off_eq_evicted] at hmem
    rw [(mem_of_mem_off hmem).2] at hi
    cases hi
  constructor
  case limit => rfl
  case held => exact hheld
  case dropped => rw [← off_eq_evicted, add_eq]
  case unfinished =>
    intro i hi hfinished
    rw [hheld]
    exact List.mem_filter.2 ⟨hi, by simpa using hkept hfinished⟩
  case last =>
    rw [hheld, List.filter_append, List.filter_cons_of_pos (by simpa using hkept hj),
      List.filter_nil, List.getLast?_concat]
  case length_le => exact length_held_add_le r j

/-- A new record of a job that is not finished is held. -/
theorem mem_held_add_self {r : Registry} {j : Job} (hj : j.isFinished = false) :
    j ∈ (r.add j).held := by
  have hmem : j ∈ (r.add j).held ++ (splitFinished (excess r.limit (r.held ++ [j]))
      (r.held ++ [j])).2 :=
    (splitFinished_perm _ _).mem_iff.2 (List.mem_append_right _ (List.mem_singleton.2 rfl))
  refine (List.mem_append.1 hmem).resolve_right fun hoff => ?_
  rw [(mem_of_mem_off hoff).2] at hj
  cases hj

/-- An addition keeps all records, the dropped ones too. -/
theorem records_add_perm (r : Registry) (j : Job) : (r.add j).records ~ r.records ++ [j] := by
  have hperm := splitFinished_perm (excess r.limit (r.held ++ [j])) (r.held ++ [j])
  rw [add_eq, records, records]
  simp only
  generalize splitFinished _ _ = split at hperm ⊢
  calc split.1 ++ (r.dropped ++ split.2)
      ~ split.1 ++ (split.2 ++ r.dropped) := List.perm_append_comm.append_left _
    _ = (split.1 ++ split.2) ++ r.dropped := (List.append_assoc ..).symm
    _ ~ (r.held ++ [j]) ++ r.dropped := hperm.append_right _
    _ = r.held ++ ([j] ++ r.dropped) := List.append_assoc ..
    _ ~ r.held ++ (r.dropped ++ [j]) := List.perm_append_comm.append_left _
    _ = r.held ++ r.dropped ++ [j] := (List.append_assoc ..).symm

theorem ids_add_perm (r : Registry) (j : Job) : (r.add j).ids ~ r.ids ++ [j.id] := by
  have hperm := (records_add_perm r j).map Job.id
  rwa [List.map_append] at hperm

theorem heldIds_add_sublist (r : Registry) (j : Job) :
    (r.add j).heldIds <+ r.heldIds ++ [j.id] := by
  have hsub := (splitFinished_sublist (excess r.limit (r.held ++ [j])) (r.held ++ [j])).map Job.id
  rwa [List.map_append] at hsub

/-! ## Changes -/

theorem records_change (r : Registry) (id : String) (f : Job → Job) :
    (r.change id f).records = r.records.map fun j => if j.id = id then f j else j :=
  List.map_append.symm

/-- A change that keeps the identity of its record keeps all identities. -/
theorem map_id_change {id : String} {f : Job → Job} (hf : ∀ j, (f j).id = j.id) (js : List Job) :
    (js.map fun j => if j.id = id then f j else j).map Job.id = js.map Job.id := by
  rw [List.map_map]
  refine List.map_congr_left fun j _ => ?_
  simp only [Function.comp_apply]
  split
  · exact hf j
  · rfl

theorem ids_change (r : Registry) (id : String) {f : Job → Job} (hf : ∀ j, (f j).id = j.id) :
    (r.change id f).ids = r.ids := by
  rw [ids, records_change, map_id_change hf, ids]

theorem heldIds_change (r : Registry) (id : String) {f : Job → Job} (hf : ∀ j, (f j).id = j.id) :
    (r.change id f).heldIds = r.heldIds :=
  map_id_change hf r.held

/-! ## Histories -/

end Registry

/-- A change of a record: of its status, or of anything but its identity. -/
structure JobChange where
  apply : Job → Job
  id_apply : ∀ j, (apply j).id = j.id

/-- The changes that a run makes: it begins, and it is over. -/
def JobChange.begun (now : String) : JobChange :=
  ⟨Job.begun now, Job.id_begun now⟩

def JobChange.concluded (now : String) (outcome : RunOutcome) : JobChange :=
  ⟨Job.concluded now outcome, Job.id_concluded now outcome⟩

/-- What happens to a registry. -/
inductive RegistryAct where
  | create (id now : String) (q : JobRequest)
  | change (id : String) (c : JobChange)

namespace RegistryAct

/-- The identity that an act creates. -/
def created? : RegistryAct → Option String
  | .create id _ _ => some id
  | .change _ _ => none

/-- The identities that acts create, in order. -/
def created (acts : List RegistryAct) : List String :=
  acts.filterMap created?

theorem created_append (acts acts' : List RegistryAct) :
    created (acts ++ acts') = created acts ++ created acts' :=
  List.filterMap_append

theorem created_concat_create (acts : List RegistryAct) (id now : String) (q : JobRequest) :
    created (acts ++ [.create id now q]) = created acts ++ [id] :=
  created_append acts _

theorem created_concat_change (acts : List RegistryAct) (id : String) (c : JobChange) :
    created (acts ++ [.change id c]) = created acts := by
  rw [created_append]
  exact List.append_nil _

end RegistryAct

namespace Registry

open scoped List

open RegistryAct (created created_append created_concat_create created_concat_change)

/-- The registry after an act. -/
def step (r : Registry) : RegistryAct → Registry
  | .create id now q => r.add (.queued id now q)
  | .change id c => r.change id c.apply

/-- The registry after acts, from an empty one with a limit. -/
def run (limit : Int) (acts : List RegistryAct) : Registry :=
  acts.foldl step { limit }

variable {limit : Int} {acts before after : List RegistryAct} {id i : String}

theorem run_concat (limit : Int) (acts : List RegistryAct) (act : RegistryAct) :
    run limit (acts ++ [act]) = (run limit acts).step act := by
  rw [run, List.foldl_append]
  rfl

@[simp] theorem limit_run (limit : Int) (acts : List RegistryAct) :
    (run limit acts).limit = limit := by
  induction acts using List.reverseRecOn with
  | nil => rfl
  | append_singleton acts act ih =>
    rw [run_concat]
    cases act <;> exact ih

/-- The identities of the records are those that were created. -/
theorem ids_run_perm (limit : Int) (acts : List RegistryAct) :
    (run limit acts).ids ~ created acts := by
  induction acts using List.reverseRecOn with
  | nil => rfl
  | append_singleton acts act ih =>
    rw [run_concat]
    cases act with
    | create id now q =>
      rw [created_concat_create]
      exact (ids_add_perm (run limit acts) (.queued id now q)).trans (ih.append_right _)
    | change id c =>
      rw [created_concat_change, step, ids_change _ _ c.id_apply]
      exact ih

/-- What is held is in the order in which it was created. -/
theorem heldIds_run_sublist (limit : Int) (acts : List RegistryAct) :
    (run limit acts).heldIds <+ created acts := by
  induction acts using List.reverseRecOn with
  | nil => exact List.Sublist.refl []
  | append_singleton acts act ih =>
    rw [run_concat]
    cases act with
    | create id now q =>
      rw [created_concat_create]
      exact (heldIds_add_sublist _ _).trans (ih.append_right _)
    | change id c =>
      rw [created_concat_change, step, heldIds_change _ _ c.id_apply]
      exact ih

/-- What is dropped stays dropped. -/
theorem mem_dropped_run (h : i ∈ (run limit before).dropped.map Job.id)
    (after : List RegistryAct) : i ∈ (run limit (before ++ after)).dropped.map Job.id := by
  induction after using List.reverseRecOn with
  | nil => rwa [List.append_nil]
  | append_singleton after act ih =>
    rw [← List.append_assoc, run_concat]
    cases act with
    | create id now q =>
      rw [step, add_eq, List.map_append]
      exact List.mem_append_left _ ih
    | change id c => exact (map_id_change c.id_apply _).symm ▸ ih

/-- An addition keeps a record or drives it out as one of a finished job. -/
theorem mem_held_add {r : Registry} {j : Job} (h : j ∈ r.held) (new : Job) :
    j ∈ (r.add new).held ∨ j ∈ r.evicted new ∧ j.isFinished = true := by
  have hmem : j ∈ (r.add new).held ++ r.evicted new := by
    rw [← off_eq_evicted, add_eq]
    exact (splitFinished_perm _ _).mem_iff.2 (List.mem_append_left _ h)
  rcases List.mem_append.1 hmem with hheld | hevicted
  · exact .inl hheld
  · rw [← off_eq_evicted] at hevicted
    exact .inr ⟨off_eq_evicted r new ▸ hevicted, (mem_of_mem_off hevicted).2⟩

/-- What is not in a registry any more was driven out at an addition, when its job was finished. -/
theorem held_or_evicted (h : i ∈ (run limit before).heldIds) (after : List RegistryAct) :
    i ∈ (run limit (before ++ after)).heldIds ∨
      ∃ mid id now q rest j, after = mid ++ .create id now q :: rest ∧
        j ∈ (run limit (before ++ mid)).evicted (.queued id now q) ∧ j.id = i ∧
        j.isFinished = true := by
  induction after using List.reverseRecOn with
  | nil => exact .inl (by rwa [List.append_nil])
  | append_singleton after act ih =>
    rcases ih with hheld | ⟨mid, id, now, q, rest, j, rfl, hj⟩
    · rw [← List.append_assoc, run_concat]
      cases act with
      | change id c => exact .inl ((heldIds_change _ id c.id_apply).symm ▸ hheld)
      | create id now q =>
        obtain ⟨j, hj, rfl⟩ := List.mem_map.1 hheld
        rcases mem_held_add hj (.queued id now q) with hkept | ⟨hevicted, hfinished⟩
        · exact .inl (List.mem_map_of_mem hkept)
        · exact .inr ⟨after, id, now, q, [], j, rfl, hevicted, rfl, hfinished⟩
    · exact .inr ⟨mid, id, now, q, rest ++ [act], j, by simp, hj⟩

/-- How a registry with a limit keeps records along acts. -/
structure Retains (limit : Int) (acts : List RegistryAct) : Prop where
  limit_eq : (run limit acts).limit = limit
  /-- Every new record drives out as few of the oldest finished ones as the limit asks for. -/
  additions : ∀ before id now q after, acts = before ++ .create id now q :: after →
    Evicts (run limit before) (.queued id now q) (run limit (before ++ [.create id now q]))
  order : (run limit acts).heldIds <+ created acts
  /-- What was driven out never comes back. -/
  gone : ∀ before after i, acts = before ++ after → i ∈ created before →
    i ∉ (run limit before).heldIds → i ∉ (run limit acts).heldIds
  /-- Nothing is lost but what is driven out, and that is finished. -/
  kept : ∀ before after i, acts = before ++ after → i ∈ (run limit before).heldIds →
    i ∈ (run limit acts).heldIds ∨
      ∃ mid id now q rest j, after = mid ++ .create id now q :: rest ∧
        j ∈ (run limit (before ++ mid)).evicted (.queued id now q) ∧ j.id = i ∧
        j.isFinished = true

/-- What is held and what is dropped is apart when no identity is created twice. -/
theorem nodup_ids_run (hfresh : (created acts).Nodup) :
    ((run limit acts).heldIds ++ (run limit acts).dropped.map Job.id).Nodup := by
  have hnodup := (ids_run_perm limit acts).nodup_iff.2 hfresh
  rwa [ids, records, List.map_append] at hnodup

/-- Along any additions, of fresh identities, and any changes, a registry keeps the records that it
should, whatever its limit is. -/
theorem retains_run (limit : Int) (hfresh : (created acts).Nodup) : Retains limit acts := by
  constructor
  case limit_eq => exact limit_run limit acts
  case additions =>
    rintro before id now q after rfl
    rw [created_append] at hfresh
    obtain ⟨hbefore, -, hapart⟩ := List.nodup_append.1 hfresh
    have hnew : ∀ i ∈ (run limit before).heldIds, i ≠ id := fun i hi =>
      hapart i ((heldIds_run_sublist limit before).mem hi) id List.mem_cons_self
    have hnodup : ((run limit before).held ++ [Job.queued id now q]).Nodup := by
      refine List.Nodup.of_map Job.id ?_
      rw [List.map_append, List.nodup_append]
      refine ⟨(heldIds_run_sublist limit before).nodup hbefore, by simp, fun i hi k hk => ?_⟩
      obtain rfl := List.mem_singleton.1 hk
      exact hnew i hi
    rw [run_concat]
    exact evicts_add hnodup rfl
  case order => exact heldIds_run_sublist limit acts
  case gone =>
    rintro before after i rfl hcreated hmissing hheld
    have hmem : i ∈ (run limit before).ids := (ids_run_perm limit before).mem_iff.2 hcreated
    rw [ids, records, List.map_append, List.mem_append] at hmem
    have hdropped := mem_dropped_run (hmem.resolve_left hmissing) after
    exact (List.nodup_append.1 (nodup_ids_run hfresh)).2.2 i hheld i hdropped rfl
  case kept =>
    rintro before after i rfl hheld
    exact held_or_evicted hheld after

/-- In a registry for one record two jobs are waiting, and one of them fails. -/
def oneFailed : List RegistryAct :=
  [.create "a" "0" ⟨"shop", none, none⟩, .create "b" "0" ⟨"shop", none, none⟩,
    .change "a" (.begun "1"), .change "a" (.concluded "2" (.interrupted (.client "timeout")))]

/-- A third record drives out that of the job that failed, and the registry stays above its
limit. -/
theorem retains_run_oneFailed :
    (run 1 (oneFailed ++ [.create "c" "3" ⟨"shop", none, none⟩])).held =
      [.queued "b" "0" ⟨"shop", none, none⟩, .queued "c" "3" ⟨"shop", none, none⟩] := by
  have hretains : Retains 1 (oneFailed ++ [.create "c" "3" ⟨"shop", none, none⟩]) :=
    retains_run 1 (by decide)
  refine (hretains.additions oneFailed "c" "3" ⟨"shop", none, none⟩ [] rfl).held.trans ?_
  decide +kernel

end Registry

end Nanoservice
