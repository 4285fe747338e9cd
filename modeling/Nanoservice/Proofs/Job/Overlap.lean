import Nanoservice.Proofs.Http.Session

/-!
# Runs that overlap

Runs of jobs share a workshop. Each has two halves, and the halves of different runs may come in any
order (`Overlap.runHalves`); an overlap keeps which runs wait for their completion, and which are
over, with what they came to.

Overlapping runs come to the same as the runs that are over, one after another in the order in
which they ended, followed by the beginnings of those that wait (`Overlap.runHalves_serial`). The
first half of a run is a mover: it changes its own record only, so it can be moved behind the ends
of other runs up to its own end.

The model of the last run that installed one is current as long as no run broke off. A run breaks
off when its model cannot be kept (`Overlap.IsOutcome.unkept_iff`), and then the model is current
although the run did not end well (`Overlap.current_of_brokenOff`).
-/

namespace Nanoservice

/-- A half of a run, at a time. -/
inductive Half where
  | start (id now : String)
  | finish (id now : String)
  deriving DecidableEq, Repr

/-- A run that waits for its completion. -/
structure Waiting where
  id : String
  now : String
  request : CompletionRequest

/-- A run that is over. -/
structure RunEnd where
  id : String
  now : String
  outcome : RunOutcome

/-- A run broke off: its model is current, but could not be kept. -/
def RunEnd.BrokeOff (e : RunEnd) : Prop :=
  ∃ b, e.outcome = .unkept b

/-- Keeping a model breaks off when there is a place for it and it cannot be written. -/
theorem ModelStore.breaksOff_iff {s : ModelStore} {b : Backend} {d : Disk} :
    s.breaksOff b d = true ↔ ∃ p, s.file = some p ∧ IsOpen d p ∧ ¬ b.IsWritable := by
  have hencodable : b.isEncodable = false ↔ ¬ b.IsWritable := by
    rw [← Bool.not_eq_true, Backend.isEncodable_iff]
  cases hfile : s.file with
  | none => simp [breaksOff, hfile]
  | some p => simp [breaksOff, hfile, isOk_makeFolders_iff, hencodable]

/-- A workshop with the runs that wait and those that are over, in order. -/
structure Overlap where
  workshop : Workshop
  waiting : List Waiting := []
  ended : List RunEnd := []

/-- What every step keeps is kept by any number of steps that go through. -/
theorem foldlM_invariant {σ α : Type} {P : σ → Prop} {f : σ → α → Option σ}
    (hf : ∀ {s a s'}, P s → f s a = some s' → P s') {s s' : σ} {as : List α} (h : P s)
    (hrun : as.foldlM f s = some s') : P s' := by
  induction as generalizing s with
  | nil =>
    cases hrun
    exact h
  | cons a as ih =>
    rw [List.foldlM_cons] at hrun
    obtain ⟨s₁, hstep, hrest⟩ := Option.bind_eq_some_iff.1 hrun
    exact ih (hf h hstep) hrest

namespace Overlap

/-- The jobs whose runs have begun. -/
def ids (o : Overlap) : List String :=
  o.waiting.map Waiting.id ++ o.ended.map RunEnd.id

/-- Runs a half; none if it is not the turn of that half: each run begins once, for a job that is
there, and goes on once if it waits. -/
def runHalf (inputs : String → RunInput) (o : Overlap) : Half → Option Overlap
  | .start id now =>
    if id ∈ o.ids then none
    else match o.workshop.start (inputs id).settings now id with
      | (_, none) => none
      | (w, some (.ok r)) => some ⟨w, o.waiting ++ [⟨id, now, r⟩], o.ended⟩
      | (w, some (.error outcome)) => some ⟨w, o.waiting, o.ended ++ [⟨id, now, outcome⟩]⟩
  | .finish id now =>
    match o.waiting.find? fun p => p.id == id with
    | none => none
    | some p =>
      let (w, outcome) :=
        o.workshop.finish (inputs id).freshId now id ((inputs id).respond p.request)
      some ⟨w, o.waiting.filter fun p => p.id != id, o.ended ++ [⟨id, now, outcome⟩]⟩

/-- Runs halves one after another. -/
def runHalves (inputs : String → RunInput) (halves : List Half) (o : Overlap) : Option Overlap :=
  halves.foldlM (runHalf inputs) o

/-- The workshop after whole runs, one after another. -/
def runAll (inputs : String → RunInput) (ends : List RunEnd) (w : Workshop) : Workshop :=
  ends.foldl (fun w e => (w.run (inputs e.id).settings (inputs e.id).freshId e.now e.id
    (inputs e.id).respond).1) w

/-- The workshop after the beginnings of runs. -/
def beginAll (ps : List Waiting) (w : Workshop) : Workshop :=
  ps.foldl (fun w p => w.begin p.now p.id) w

/-- It is the turn of a half: of the first one if the job is there and its run has not begun, and of
the second one if the run waits. -/
def IsDue (w₀ : Workshop) (o : Overlap) : Half → Prop
  | .start id _ => id ∉ o.ids ∧ (w₀.request? id).isSome
  | .finish id _ => id ∈ o.waiting.map Waiting.id

/-- The model that the last of the runs with a model made. -/
def lastModel? (ends : List RunEnd) : Option Backend :=
  ends.reverse.findSome? fun e => e.outcome.model?

/-- The model that the last of the runs that ended well installed. -/
def lastInstalled? (ends : List RunEnd) : Option Backend :=
  ends.reverse.findSome? fun e => e.outcome.installed?

/-- What a half that leads from one overlap to another leaves behind in the store. -/
structure LeavesStore (o o' : Overlap) : Prop where
  /-- A half that ends no run, or one without a model, leaves the store and the disk as they are. -/
  unchanged : (∀ e, o'.ended = o.ended ++ [e] → e.outcome.model? = none) →
    o'.workshop.store = o.workshop.store ∧ o'.workshop.disk = o.workshop.disk
  /-- The model of a run that is over is current, also if the run broke off. -/
  current : ∀ e b, o'.ended = o.ended ++ [e] → e.outcome.model? = some b →
    o'.workshop.store.current = some b

/-! ## Beginnings and whole runs -/

variable {inputs : String → RunInput} {w w₀ : Workshop} {o o' : Overlap} {ps : List Waiting}
  {es : List RunEnd}

theorem beginAll_cons (p : Waiting) (ps : List Waiting) (w : Workshop) :
    beginAll (p :: ps) w = beginAll ps (w.begin p.now p.id) := rfl

theorem beginAll_append (ps qs : List Waiting) (w : Workshop) :
    beginAll (ps ++ qs) w = beginAll qs (beginAll ps w) :=
  List.foldl_append

@[simp] theorem request?_beginAll (ps : List Waiting) (w : Workshop) (i : String) :
    (beginAll ps w).request? i = w.request? i := by
  induction ps generalizing w with
  | nil => rfl
  | cons p ps ih => rw [beginAll_cons, ih, Workshop.request?_begin]

/-- A whole run can be moved in front of the beginnings of others. -/
theorem ran_beginAll {id : String} (h : ∀ p ∈ ps, p.id ≠ id) (now : String) (outcome : RunOutcome)
    (w : Workshop) : (beginAll ps w).ran now id outcome = beginAll ps (w.ran now id outcome) := by
  induction ps generalizing w with
  | nil => rfl
  | cons p ps ih =>
    obtain ⟨hp, hps⟩ := List.forall_mem_cons.1 h
    rw [beginAll_cons, beginAll_cons, ih hps, Workshop.ran_begin hp]

/-- A beginning can be moved behind those of others. -/
theorem begin_beginAll {id : String} (h : ∀ p ∈ ps, p.id ≠ id) (now : String) (w : Workshop) :
    beginAll ps (w.begin now id) = (beginAll ps w).begin now id := by
  induction ps generalizing w with
  | nil => rfl
  | cons p ps ih =>
    obtain ⟨hp, hps⟩ := List.forall_mem_cons.1 h
    rw [beginAll_cons, beginAll_cons, Workshop.begin_comm hp.symm, ih hps]

theorem record?_beginAll {id : String} (h : ∀ p ∈ ps, p.id ≠ id) (w : Workshop) :
    (beginAll ps w).registry.record? id = w.registry.record? id := by
  induction ps generalizing w with
  | nil => rfl
  | cons p ps ih =>
    obtain ⟨hp, hps⟩ := List.forall_mem_cons.1 h
    rw [beginAll_cons, ih hps, Workshop.record?_begin_of_ne hp]

theorem store_beginAll (ps : List Waiting) (w : Workshop) : (beginAll ps w).store = w.store := by
  induction ps generalizing w with
  | nil => rfl
  | cons p ps ih => exact ih (w.begin p.now p.id)

@[simp] theorem request?_runAll (inputs : String → RunInput) (es : List RunEnd) (w : Workshop)
    (i : String) : (runAll inputs es w).request? i = w.request? i := by
  induction es generalizing w with
  | nil => rfl
  | cons e es ih => rw [runAll, List.foldl_cons, ← runAll, ih, Workshop.request?_run]

theorem disk_beginAll (ps : List Waiting) (w : Workshop) : (beginAll ps w).disk = w.disk := by
  induction ps generalizing w with
  | nil => rfl
  | cons p ps ih => exact ih (w.begin p.now p.id)

/-- What a model made current comes to is the same before and after whole runs. -/
theorem inStore_runAll (inputs : String → RunInput) (es : List RunEnd) (w : Workshop)
    (outcome : RunOutcome) :
    outcome.inStore (runAll inputs es w).store (runAll inputs es w).disk =
      outcome.inStore w.store w.disk := by
  induction es generalizing w with
  | nil => rfl
  | cons e es ih => rw [runAll, List.foldl_cons, ← runAll, ih, Workshop.inStore_run]

/-- The run that is over came to what its request leads to. -/
def IsOutcome (inputs : String → RunInput) (w : Workshop) (e : RunEnd) : Prop :=
  ∃ q, w.request? e.id = some q ∧ e.outcome = (inputs e.id).outcome w q

/-- A run behind other runs comes to what its request leads to. -/
theorem runAll_concat {e : RunEnd} (h : IsOutcome inputs w e) :
    runAll inputs (es ++ [e]) w = (runAll inputs es w).ran e.now e.id e.outcome := by
  obtain ⟨q, hq, he⟩ := h
  have hq' : (runAll inputs es w).request? e.id = some q := by rw [request?_runAll, hq]
  obtain ⟨requests, hrun⟩ := Workshop.run_eq (inputs e.id) e.now hq'
  have hsame := Workshop.outcome_congr (inStore_runAll inputs es w) (inputs e.id) q
  rw [runAll, List.foldl_append, List.foldl_cons, List.foldl_nil, ← runAll, hrun, hsame, he]

theorem lastModel?_concat (es : List RunEnd) (e : RunEnd) :
    lastModel? (es ++ [e]) = e.outcome.model?.or (lastModel? es) := by
  rw [lastModel?, List.reverse_concat, List.findSome?_cons, lastModel?]
  cases e.outcome.model? <;> rfl

/-- As long as no run broke off, the last model that was made is the last one that was
installed. -/
theorem lastInstalled?_eq_lastModel? (h : ∀ e ∈ es, ¬ e.BrokeOff) :
    lastInstalled? es = lastModel? es := by
  induction es using List.reverseRecOn with
  | nil => rfl
  | append_singleton es e ih =>
    obtain ⟨hes, he⟩ := List.forall_mem_append.1 h
    have hlast : e.outcome.installed? = e.outcome.model? :=
      RunOutcome.installed?_eq_model? fun b hb => List.forall_mem_singleton.1 he ⟨b, hb⟩
    rw [lastModel?_concat, ← ih hes, ← hlast, lastInstalled?, List.reverse_concat,
      List.findSome?_cons, lastInstalled?]
    cases e.outcome.installed? <;> rfl

/-- A run that is over broke off exactly when it made a model that could not be kept. -/
theorem IsOutcome.unkept_iff {e : RunEnd} (h : IsOutcome inputs w e) (b : Backend) :
    e.outcome = .unkept b ↔ e.outcome.model? = some b ∧
      ∃ p, w.store.file = some p ∧ ModelStore.IsOpen w.disk p ∧ ¬ b.IsWritable := by
  obtain ⟨q, -, he⟩ := h
  rw [he, RunInput.outcome, ← ModelStore.breaksOff_iff]
  cases Generation.request (inputs e.id).settings q.prompt q.model with
  | error f => simp [RunOutcome.ofRefusal, RunOutcome.model?]
  | ok r =>
    have hne := RunOutcome.ofCompletion_ne_unkept (inputs e.id).freshId
      ((inputs e.id).respond r) b
    rw [RunOutcome.inStore_eq_unkept hne, RunOutcome.model?_inStore, RunOutcome.model?_eq_some,
      or_iff_left hne]

/-- After whole runs, the model of the last one with a model is current. -/
theorem current_runAll (h : ∀ e ∈ es, IsOutcome inputs w e) :
    (runAll inputs es w).store.current = (lastModel? es).or w.store.current := by
  induction es using List.reverseRecOn with
  | nil => rfl
  | append_singleton es e ih =>
    obtain ⟨hes, he⟩ := List.forall_mem_append.1 h
    rw [runAll_concat (List.forall_mem_singleton.1 he), Workshop.ran, Workshop.current_conclude,
      lastModel?_concat, Option.or_assoc, ← ih hes]
    rfl

/-- Whole runs leave the records of other jobs as they are. -/
theorem record?_runAll_of_not_mem {id : String} (h : ∀ e ∈ es, IsOutcome inputs w e)
    (hid : ∀ e ∈ es, e.id ≠ id) :
    (runAll inputs es w).registry.record? id = w.registry.record? id := by
  induction es using List.reverseRecOn with
  | nil => rfl
  | append_singleton es e ih =>
    obtain ⟨hes, he⟩ := List.forall_mem_append.1 h
    obtain ⟨hids, hne⟩ := List.forall_mem_append.1 hid
    rw [runAll_concat (List.forall_mem_singleton.1 he),
      Workshop.record?_ran_of_ne (hne e (List.mem_singleton.2 rfl)), ih hes hids]

/-- Among whole runs of different jobs, each leaves the record that it leaves alone. -/
theorem record?_runAll (h : ∀ e ∈ es, IsOutcome inputs w e) (hids : (es.map RunEnd.id).Nodup) :
    ∀ e ∈ es, (runAll inputs es w).registry.record? e.id =
      (w.ran e.now e.id e.outcome).registry.record? e.id := by
  induction es using List.reverseRecOn with
  | nil => exact fun e he => by cases he
  | append_singleton es f ih =>
    obtain ⟨hes, hf⟩ := List.forall_mem_append.1 h
    rw [List.map_append, List.nodup_append] at hids
    obtain ⟨hnodup, -, hfresh⟩ := hids
    have hne : ∀ e ∈ es, e.id ≠ f.id := fun e he =>
      hfresh e.id (List.mem_map_of_mem he) f.id (List.mem_singleton.2 rfl)
    intro e he
    rw [runAll_concat (List.forall_mem_singleton.1 hf)]
    rcases List.mem_append.1 he with he | he
    · rw [Workshop.record?_ran_of_ne (hne e he).symm, ih hes hnodup e he]
    · obtain rfl := List.mem_singleton.1 he
      rw [Workshop.record?_ran_self, record?_runAll_of_not_mem hes hne, Workshop.record?_ran_self]

/-! ## Halves -/

/-- What an overlap comes to is what runs one after another come to. -/
structure IsSerial (inputs : String → RunInput) (w₀ : Workshop) (o : Overlap) : Prop where
  distinct : o.ids.Nodup
  workshop : o.workshop = beginAll o.waiting (runAll inputs o.ended w₀)
  waiting : ∀ p ∈ o.waiting, ∃ q, w₀.request? p.id = some q ∧
    Generation.request (inputs p.id).settings q.prompt q.model = .ok p.request
  ended : ∀ e ∈ o.ended, IsOutcome inputs w₀ e

/-- A first half begins a run, and ends it if its input is refused. -/
theorem runHalf_start_eq_some {id now : String} :
    o.runHalf inputs (.start id now) = some o' ↔
      id ∉ o.ids ∧ ∃ q, o.workshop.request? id = some q ∧
        ((∃ r, Generation.request (inputs id).settings q.prompt q.model = .ok r ∧
            o' = ⟨o.workshop.begin now id, o.waiting ++ [⟨id, now, r⟩], o.ended⟩) ∨
          ∃ f, Generation.request (inputs id).settings q.prompt q.model = .error f ∧
            o' = ⟨o.workshop.ran now id (.ofRefusal f), o.waiting,
              o.ended ++ [⟨id, now, .ofRefusal f⟩]⟩) := by
  by_cases hfresh : id ∈ o.ids
  · simp [runHalf, hfresh]
  · cases hq : o.workshop.request? id with
    | none => simp [runHalf, hfresh, Workshop.start_eq_none _ _ hq]
    | some q =>
      cases hrequest : Generation.request (inputs id).settings q.prompt q.model <;>
        simp [runHalf, hfresh, Workshop.start_eq _ _ hq, hrequest, eq_comm]

/-- A second half ends a run that waits. -/
theorem runHalf_finish_eq_some {id now : String} :
    o.runHalf inputs (.finish id now) = some o' ↔
      ∃ p outcome, o.waiting.find? (fun x => x.id == id) = some p ∧
        outcome = (RunOutcome.ofCompletion (inputs id).freshId
          ((inputs id).respond p.request)).inStore o.workshop.store o.workshop.disk ∧
        o' = ⟨o.workshop.conclude now id outcome, o.waiting.filter fun x => x.id != id,
          o.ended ++ [⟨id, now, outcome⟩]⟩ := by
  cases hfind : o.waiting.find? fun x => x.id == id with
  | none => simp [runHalf, hfind]
  | some p => simp [runHalf, hfind, Workshop.finish, eq_comm]

/-- A first half goes through when the run has not begun and the job is there. -/
theorem exists_runHalf_start {id now : String} :
    (∃ o', o.runHalf inputs (.start id now) = some o') ↔
      id ∉ o.ids ∧ ∃ q, o.workshop.request? id = some q := by
  constructor
  · rintro ⟨o', hstep⟩
    obtain ⟨hfresh, q, hq, -⟩ := runHalf_start_eq_some.1 hstep
    exact ⟨hfresh, q, hq⟩
  · rintro ⟨hfresh, q, hq⟩
    cases hrequest : Generation.request (inputs id).settings q.prompt q.model with
    | ok r => exact ⟨_, runHalf_start_eq_some.2 ⟨hfresh, q, hq, .inl ⟨r, hrequest, rfl⟩⟩⟩
    | error f => exact ⟨_, runHalf_start_eq_some.2 ⟨hfresh, q, hq, .inr ⟨f, hrequest, rfl⟩⟩⟩

/-- A second half goes through when the run waits. -/
theorem exists_runHalf_finish {id now : String} :
    (∃ o', o.runHalf inputs (.finish id now) = some o') ↔ id ∈ o.waiting.map Waiting.id := by
  constructor
  · rintro ⟨o', hstep⟩
    obtain ⟨p, outcome, hfind, -⟩ := runHalf_finish_eq_some.1 hstep
    have hid := List.find?_some hfind
    exact List.mem_map.2 ⟨p, List.mem_of_find?_eq_some hfind, beq_iff_eq.1 hid⟩
  · intro hmem
    obtain ⟨x, hx, -⟩ := exists_find?_of_mem hmem
    exact ⟨_, runHalf_finish_eq_some.2 ⟨x, _, hx, rfl, rfl⟩⟩

/-- The first half of a run keeps runs serial, whether it comes to a completion request or the run
is over at once. -/
theorem IsSerial.start (h : IsSerial inputs w₀ o) {id now : String}
    (hstep : o.runHalf inputs (.start id now) = some o') : IsSerial inputs w₀ o' := by
  obtain ⟨hfresh, q, hq, hcases⟩ := runHalf_start_eq_some.1 hstep
  have hq₀ : w₀.request? id = some q := by
    rw [← hq, h.workshop, request?_beginAll, request?_runAll]
  rcases hcases with ⟨r, hrequest, rfl⟩ | ⟨f, hrequest, rfl⟩
  · constructor
    case distinct =>
      rw [ids, List.map_append, List.append_assoc, List.map_singleton, List.singleton_append,
        List.nodup_middle]
      exact List.nodup_cons.2 ⟨hfresh, h.distinct⟩
    case workshop =>
      rw [h.workshop, beginAll_append]
      rfl
    case waiting =>
      exact List.forall_mem_append.2 ⟨h.waiting, List.forall_mem_singleton.2 ⟨q, hq₀, hrequest⟩⟩
    case ended => exact h.ended
  · have hne : ∀ p ∈ o.waiting, p.id ≠ id := fun p hp he =>
      hfresh (List.mem_append_left _ (List.mem_map.2 ⟨p, hp, he⟩))
    have houtcome : IsOutcome inputs w₀ ⟨id, now, .ofRefusal f⟩ :=
      ⟨q, hq₀, by rw [RunInput.outcome, hrequest]⟩
    constructor
    case distinct =>
      rw [ids, List.map_append, ← List.append_assoc, List.map_singleton, List.nodup_middle,
        List.append_nil]
      exact List.nodup_cons.2 ⟨hfresh, h.distinct⟩
    case workshop => rw [h.workshop, ran_beginAll hne, runAll_concat houtcome]
    case waiting => exact h.waiting
    case ended => exact List.forall_mem_append.2 ⟨h.ended, List.forall_mem_singleton.2 houtcome⟩

/-- A run that waits is one of those that wait, and the others are left when it is over. -/
theorem exists_waiting_split {id : String} {p : Waiting} (hdistinct : o.ids.Nodup)
    (hfind : o.waiting.find? (fun x => x.id == id) = some p) :
    p.id = id ∧ ∃ as bs, o.waiting = as ++ p :: bs ∧
      (o.waiting.filter fun x => x.id != id) = as ++ bs := by
  obtain ⟨hid, as, bs, hsplit, -⟩ := List.find?_eq_some_iff_append.1 hfind
  obtain rfl := beq_iff_eq.1 hid
  rw [ids, hsplit, List.map_append, List.map_cons, List.append_assoc, List.cons_append,
    List.nodup_middle, List.nodup_cons, ← List.append_assoc, ← List.map_append] at hdistinct
  have hne : ∀ x ∈ as ++ bs, x.id ≠ p.id := fun x hx he =>
    hdistinct.1 (List.mem_append_left _ (List.mem_map.2 ⟨x, hx, he⟩))
  refine ⟨rfl, as, bs, hsplit, ?_⟩
  rw [hsplit, List.filter_append, List.filter_cons_of_neg (by simp), ← List.filter_append]
  exact List.filter_eq_self.2 fun x hx => by simpa using hne x hx

/-- The second half of a run keeps runs serial: the run is moved in front of the beginnings of those
that still wait, its own beginning behind them. -/
theorem IsSerial.finish (h : IsSerial inputs w₀ o) {id now : String}
    (hstep : o.runHalf inputs (.finish id now) = some o') : IsSerial inputs w₀ o' := by
  obtain ⟨p, outcome, hfind, hcompletion, rfl⟩ := runHalf_finish_eq_some.1 hstep
  obtain ⟨rfl, as, bs, hsplit, hrest⟩ := exists_waiting_split h.distinct hfind
  have hdistinct := h.distinct
  rw [ids, hsplit, List.map_append, List.map_cons, List.append_assoc, List.cons_append,
    List.nodup_middle, List.nodup_cons, ← List.append_assoc, ← List.map_append] at hdistinct
  obtain ⟨hfresh, hothers⟩ := hdistinct
  have hne : ∀ x ∈ as ++ bs, x.id ≠ p.id := fun x hx he =>
    hfresh (List.mem_append_left _ (List.mem_map.2 ⟨x, hx, he⟩))
  obtain ⟨q, hq, hrequest⟩ := h.waiting p (hsplit ▸ List.mem_append_right _ List.mem_cons_self)
  have houtcome : IsOutcome inputs w₀ ⟨p.id, now, outcome⟩ := by
    refine ⟨q, hq, ?_⟩
    rw [hcompletion, h.workshop, store_beginAll, disk_beginAll, inStore_runAll, RunInput.outcome,
      hrequest]
  constructor
  case distinct =>
    have hended : (o.ended ++ [(⟨p.id, now, outcome⟩ : RunEnd)]).map RunEnd.id =
        o.ended.map RunEnd.id ++ [p.id] := List.map_append
    rw [ids, hrest, hended, ← List.append_assoc, List.nodup_middle, List.append_nil]
    exact List.nodup_cons.2 ⟨hfresh, hothers⟩
  case workshop =>
    have hbegun : beginAll o.waiting (runAll inputs o.ended w₀) =
        (beginAll (as ++ bs) (runAll inputs o.ended w₀)).begin p.now p.id := by
      rw [hsplit, beginAll_append, beginAll_cons, begin_beginAll (List.forall_mem_append.1 hne).2,
        beginAll_append]
    rw [hrest]
    calc o.workshop.conclude now p.id outcome
        = (beginAll (as ++ bs) (runAll inputs o.ended w₀)).ran now p.id outcome := by
          rw [h.workshop, hbegun, Workshop.conclude_begin_self]
      _ = beginAll (as ++ bs) ((runAll inputs o.ended w₀).ran now p.id outcome) :=
          ran_beginAll hne now outcome _
      _ = beginAll (as ++ bs) (runAll inputs (o.ended ++ [⟨p.id, now, outcome⟩]) w₀) := by
          rw [runAll_concat houtcome]
  case waiting =>
    intro x hx
    exact h.waiting x (List.mem_filter.1 hx).1
  case ended => exact List.forall_mem_append.2 ⟨h.ended, List.forall_mem_singleton.2 houtcome⟩

/-- A half keeps runs serial. -/
theorem IsSerial.runHalf (h : IsSerial inputs w₀ o) {half : Half}
    (hstep : o.runHalf inputs half = some o') : IsSerial inputs w₀ o' := by
  cases half with
  | start id now => exact h.start hstep
  | finish id now => exact h.finish hstep

theorem runHalves_cons (half : Half) (halves : List Half) (o : Overlap) :
    o.runHalves inputs (half :: halves) =
      (o.runHalf inputs half).bind fun o => o.runHalves inputs halves :=
  List.foldlM_cons

/-- Halves keep runs serial, however many there are and in whatever order. -/
theorem IsSerial.runHalves (h : IsSerial inputs w₀ o) {halves : List Half}
    (hrun : o.runHalves inputs halves = some o') : IsSerial inputs w₀ o' :=
  foldlM_invariant (fun h hstep => IsSerial.runHalf h hstep) h hrun

/-- Runs are serial as long as none has begun. -/
theorem isSerial_nil (inputs : String → RunInput) (w₀ : Workshop) :
    IsSerial inputs w₀ { workshop := w₀ } where
  distinct := List.nodup_nil
  workshop := rfl
  waiting := fun p hp => by cases hp
  ended := fun e he => by cases he

/-- A half whose turn it is goes through. -/
theorem IsSerial.exists_runHalf (h : IsSerial inputs w₀ o) {half : Half} (hdue : IsDue w₀ o half) :
    ∃ o', o.runHalf inputs half = some o' := by
  cases half with
  | start id now =>
    obtain ⟨hfresh, hthere⟩ := hdue
    obtain ⟨q, hq⟩ := Option.isSome_iff_exists.1 hthere
    refine exists_runHalf_start.2 ⟨hfresh, q, ?_⟩
    rw [h.workshop, request?_beginAll, request?_runAll, hq]
  | finish id now => exact exists_runHalf_finish.2 hdue

/-- A half installs the model of the run that it ends, and does nothing else to the store. -/
theorem leavesStore_runHalf {half : Half} (hstep : o.runHalf inputs half = some o') :
    LeavesStore o o' := by
  cases half with
  | start id now =>
    obtain ⟨-, q, -, ⟨r, -, rfl⟩ | ⟨f, -, rfl⟩⟩ := runHalf_start_eq_some.1 hstep
    · exact ⟨fun _ => ⟨rfl, rfl⟩, fun e b he => by simp at he⟩
    · refine ⟨fun _ => Workshop.store_conclude rfl now id (o.workshop.begin now id), ?_⟩
      intro e b he hmodel
      obtain rfl : ⟨id, now, .ofRefusal f⟩ = e := by simpa using he
      cases hmodel
  | finish id now =>
    obtain ⟨p, outcome, -, -, rfl⟩ := runHalf_finish_eq_some.1 hstep
    refine ⟨fun hnone => Workshop.store_conclude (hnone _ rfl) now id o.workshop, ?_⟩
    intro e b he hmodel
    obtain rfl : ⟨id, now, outcome⟩ = e := by simpa using he
    rw [Workshop.current_conclude, hmodel, Option.some_or]

/-- Each run that is over came to what it comes to alone, and so did its record. -/
theorem IsSerial.alone (h : IsSerial inputs w₀ o) {e : RunEnd} (he : e ∈ o.ended) :
    ∃ w requests j, w₀.run (inputs e.id).settings (inputs e.id).freshId e.now e.id
        (inputs e.id).respond = (w, requests, some e.outcome) ∧
      w.registry.record? e.id = some j ∧ o.workshop.registry.record? e.id = some j := by
  obtain ⟨q, hq, houtcome⟩ := h.ended e he
  obtain ⟨requests, hrun⟩ := Workshop.run_eq (inputs e.id) e.now hq
  rw [← houtcome] at hrun
  obtain ⟨j, hj, -⟩ := Option.map_eq_some_iff.1 hq
  have halone : (w₀.ran e.now e.id e.outcome).registry.record? e.id =
      some ((j.begun e.now).concluded e.now e.outcome) := by
    rw [Workshop.record?_ran_self, hj, Option.map_some]
  obtain ⟨-, hids, hapart⟩ := List.nodup_append.1 h.distinct
  have hne : ∀ p ∈ o.waiting, p.id ≠ e.id := fun p hp =>
    hapart p.id (List.mem_map_of_mem hp) e.id (List.mem_map_of_mem he)
  refine ⟨_, requests, _, hrun, halone, ?_⟩
  rw [h.workshop, record?_beginAll hne, record?_runAll h.ended hids e he, halone]

/-- Runs overlap in any order of their halves, each of which goes through when it is its turn, and
come to the same as the runs that are over one after another, with the runs that wait begun behind
them; and each run comes to what it comes to alone. As long as no run broke off, the model of the
last run that installed one is current, and a half without a model leaves the store and the disk as
they are. A run breaks off exactly when the store has a file that can be reached and the model
cannot be written; then the model is current although it was not installed. -/
theorem runHalves_serial {halves : List Half}
    (hrun : ({ workshop := w₀ } : Overlap).runHalves inputs halves = some o) :
    o.workshop = beginAll o.waiting (runAll inputs o.ended w₀) ∧
      (∀ e ∈ o.ended, ∃ w requests j,
        w₀.run (inputs e.id).settings (inputs e.id).freshId e.now e.id (inputs e.id).respond =
          (w, requests, some e.outcome) ∧
        w.registry.record? e.id = some j ∧ o.workshop.registry.record? e.id = some j) ∧
      ((∀ e ∈ o.ended, ¬ e.BrokeOff) →
        o.workshop.store.current = (lastInstalled? o.ended).or w₀.store.current) ∧
      (∀ e ∈ o.ended, ∀ b, e.outcome = .unkept b ↔ e.outcome.model? = some b ∧
        ∃ p, w₀.store.file = some p ∧ ModelStore.IsOpen w₀.disk p ∧ ¬ b.IsWritable) ∧
      ∀ half, IsDue w₀ o half → ∃ o', o.runHalf inputs half = some o' ∧ LeavesStore o o' := by
  have h := (isSerial_nil inputs w₀).runHalves hrun
  refine ⟨h.workshop, fun e he => h.alone he, fun hkept => ?_,
    fun e he => (h.ended e he).unkept_iff, fun half hdue => ?_⟩
  · rw [h.workshop, store_beginAll, current_runAll h.ended, lastInstalled?_eq_lastModel? hkept]
  · obtain ⟨o', hstep⟩ := h.exists_runHalf hdue
    exact ⟨o', hstep, leavesStore_runHalf hstep⟩

/-- Where there is a key, the request of a job comes to a completion request. -/
theorem exists_request {settings : Settings} (h : settings.apiKey = some "key") :
    ∃ r, Generation.request settings "shop" none = .ok r := by
  have hinput : Prompt.inputFailure? (some "shop") (some "key") = none := by cbv
  rw [Generation.request, h, hinput]
  exact ⟨_, rfl⟩

/-- Two jobs, neither of which has run. -/
def twoJobs : Workshop where
  registry :=
    { limit := 10
      held := [.queued "a" "0" ⟨"shop", none, none⟩, .queued "b" "0" ⟨"shop", none, none⟩] }
  store := { file := none }

/-- The completion of the first job fails, and that of the second is a model. -/
def lateFailure (id : String) : RunInput where
  settings := { apiKey := some "key" }
  freshId := id
  respond := fun _ =>
    if id = "a" then .failure "timeout" else .reply "\x7b\"name\":\"shop\",\"workflows\":[]\x7d"

/-- The second job is over first, and its model stays current as the first job fails. -/
theorem runHalves_serial_lateFailure :
    ∃ o, ({ workshop := twoJobs } : Overlap).runHalves lateFailure
        [.start "a" "1", .start "b" "2", .finish "b" "3", .finish "a" "4"] = some o ∧
      o.ended.map RunEnd.id = ["b", "a"] ∧
      o.workshop.store.current = some ⟨"b", "shop", "", "0.1.0", [], [], []⟩ := by
  have hrequest (id : String) :
      ∃ r, Generation.request (lateFailure id).settings "shop" none = .ok r := exists_request rfl
  obtain ⟨r, hr⟩ := hrequest "a"
  obtain ⟨r', hr'⟩ := hrequest "b"
  let failed := RunOutcome.stopped ⟨⟨.serviceUnavailable, "timeout", .translate⟩, .translate⟩
  let made := RunOutcome.installed ⟨"b", "shop", "", "0.1.0", [], [], []⟩
  -- the store has no file, so nothing breaks off
  have hfailed (w : Workshop) : failed =
      (RunOutcome.ofCompletion "a" ((lateFailure "a").respond r)).inStore w.store w.disk := by
    rw [lateFailure, if_pos rfl]
    rfl
  have hmade {w : Workshop} (hw : w.store.file = none) : made =
      (RunOutcome.ofCompletion "b" ((lateFailure "b").respond r')).inStore w.store w.disk := by
    have hreply : RunOutcome.ofCompletion "b"
        (.reply "\x7b\"name\":\"shop\",\"workflows\":[]\x7d") =
          .installed ⟨"b", "shop", "", "0.1.0", [], [], []⟩ := by cbv
    rw [lateFailure, if_neg (by decide), hreply, RunOutcome.inStore, ModelStore.breaksOff, hw]
    rfl
  -- the workshop and the runs after each half
  let begun := (twoJobs.begin "1" "a").begin "2" "b"
  have hq : twoJobs.request? "a" = some ⟨"shop", none, none⟩ := rfl
  have hq' : (twoJobs.begin "1" "a").request? "b" = some ⟨"shop", none, none⟩ := by
    rw [Workshop.request?_begin]
    rfl
  have h₁ : Overlap.runHalf lateFailure ⟨twoJobs, [], []⟩ (.start "a" "1") =
      some ⟨twoJobs.begin "1" "a", [⟨"a", "1", r⟩], []⟩ :=
    runHalf_start_eq_some.2 ⟨List.not_mem_nil, _, hq, .inl ⟨r, hr, rfl⟩⟩
  have h₂ : Overlap.runHalf lateFailure ⟨twoJobs.begin "1" "a", [⟨"a", "1", r⟩], []⟩
      (.start "b" "2") = some ⟨begun, [⟨"a", "1", r⟩, ⟨"b", "2", r'⟩], []⟩ :=
    runHalf_start_eq_some.2 ⟨by simp [ids], _, hq', .inl ⟨r', hr', rfl⟩⟩
  have h₃ : Overlap.runHalf lateFailure ⟨begun, [⟨"a", "1", r⟩, ⟨"b", "2", r'⟩], []⟩
      (.finish "b" "3") =
        some ⟨begun.conclude "3" "b" made, [⟨"a", "1", r⟩], [⟨"b", "3", made⟩]⟩ :=
    runHalf_finish_eq_some.2 ⟨⟨"b", "2", r'⟩, made, by simp, hmade rfl, by simp⟩
  have h₄ : Overlap.runHalf lateFailure
      ⟨begun.conclude "3" "b" made, [⟨"a", "1", r⟩], [⟨"b", "3", made⟩]⟩ (.finish "a" "4") =
        some ⟨(begun.conclude "3" "b" made).conclude "4" "a" failed, [],
          [⟨"b", "3", made⟩, ⟨"a", "4", failed⟩]⟩ :=
    runHalf_finish_eq_some.2 ⟨⟨"a", "1", r⟩, failed, by simp, hfailed _, by simp⟩
  have hrun := calc
    Overlap.runHalves lateFailure
        [.start "a" "1", .start "b" "2", .finish "b" "3", .finish "a" "4"] ⟨twoJobs, [], []⟩
      = Overlap.runHalves lateFailure [.finish "b" "3", .finish "a" "4"]
          ⟨begun, [⟨"a", "1", r⟩, ⟨"b", "2", r'⟩], []⟩ := by
        rw [runHalves_cons, h₁, Option.bind_some, runHalves_cons, h₂, Option.bind_some]
    _ = some ⟨(begun.conclude "3" "b" made).conclude "4" "a" failed, [],
          [⟨"b", "3", made⟩, ⟨"a", "4", failed⟩]⟩ := by
        rw [runHalves_cons, h₃, Option.bind_some, runHalves_cons, h₄]
        rfl
  refine ⟨_, hrun, rfl, (runHalves_serial hrun).2.2.1 ?_⟩
  rintro e he ⟨b, hb⟩
  rcases List.mem_pair.1 he with rfl | rfl <;> cases hb

/-- What is given to the run of a job that a completion comes for. -/
def shopInput (c : Completion) : RunInput where
  settings := { apiKey := some "key" }
  freshId := "0"
  respond := fun _ => c

/-- A job that has not run, and a store with a file. -/
def keptJob : Workshop where
  registry := { limit := 10, held := [.queued "a" "0" ⟨"shop", none, none⟩] }
  store := { file := some ["state.json"] }

/-- A model with half of a surrogate pair in a schema cannot be kept in a file. -/
theorem inStore_halvedReply :
    (RunOutcome.ofCompletion "0" (.reply Http.halvedReply)).inStore ⟨some ["state.json"], none⟩ {} =
      .unkept (Http.capped (.broken [.half ⟨0xD800, by decide⟩])) := by
  have hmade : RunOutcome.ofCompletion "0" (.reply Http.halvedReply) =
      .installed (Http.capped (.broken [.half ⟨0xD800, by decide⟩])) := by
    have hmodel := Http.model?_of_read Http.read_halvedReply "" ""
    rw [Http.Event.model?] at hmodel
    exact (RunOutcome.model?_eq_some.1 hmodel).resolve_right
      (RunOutcome.ofCompletion_ne_unkept _ _ _)
  have hbreaks : ModelStore.breaksOff ⟨some ["state.json"], none⟩
      (Http.capped (.broken [.half ⟨0xD800, by decide⟩])) {} = true := by
    cbv
  rw [hmade, RunOutcome.inStore, if_pos hbreaks]

/-- A run that breaks off leaves its model current, although no run installed one. -/
theorem current_of_brokenOff :
    ∃ o b, ({ workshop := keptJob } : Overlap).runHalves
        (fun _ => shopInput (.reply Http.halvedReply)) [.start "a" "1", .finish "a" "2"] = some o ∧
      o.ended = [⟨"a", "2", .unkept b⟩] ∧ lastInstalled? o.ended = none ∧
      keptJob.store.current = none ∧ o.workshop.store.current = some b := by
  obtain ⟨r, hr⟩ : ∃ r, Generation.request (shopInput (.reply Http.halvedReply)).settings "shop"
      none = .ok r := exists_request rfl
  have h₁ : runHalf (fun _ => shopInput (.reply Http.halvedReply)) ⟨keptJob, [], []⟩
      (.start "a" "1") = some ⟨keptJob.begin "1" "a", [⟨"a", "1", r⟩], []⟩ :=
    runHalf_start_eq_some.2 ⟨List.not_mem_nil, _, rfl, .inl ⟨r, hr, rfl⟩⟩
  have h₂ : runHalf (fun _ => shopInput (.reply Http.halvedReply))
      ⟨keptJob.begin "1" "a", [⟨"a", "1", r⟩], []⟩ (.finish "a" "2") =
        some ⟨(keptJob.begin "1" "a").conclude "2" "a"
            (.unkept (Http.capped (.broken [.half ⟨0xD800, by decide⟩]))), [],
          [⟨"a", "2", .unkept (Http.capped (.broken [.half ⟨0xD800, by decide⟩]))⟩]⟩ :=
    runHalf_finish_eq_some.2 ⟨⟨"a", "1", r⟩, _, by simp, inStore_halvedReply.symm, by simp⟩
  exact ⟨_, _, by rw [runHalves_cons, h₁, Option.bind_some, runHalves_cons, h₂]; rfl, rfl, rfl, rfl,
    rfl⟩

end Overlap

end Nanoservice
