import ContentSync.Engine.Fetching

/-!
# The buffer of fetches

Jobs are numbered in the order in which they are started, which is the order of the list. A result
is kept with its job until it can be taken, and results are taken in order, so the results that have
been taken are those of the first jobs.

* `Fetching.Fits` — the buffer holds the jobs of a list, and every result in it belongs to its job;
* `Fits.launch`, `Fits.land` — starting a job and putting in its result keep that;
* `Fits.results` — when the buffer is over there is a result for each job, in order.
-/

set_option autoImplicit false

namespace ContentSync.Engine.Fetching

/-- The numbers of the jobs that have been started and have not ended. -/
def unresolved (held : List Slot) : List Nat :=
  (held.filter fun s => s.result.isNone).map (·.number)

/-- What a buffer that was made for some jobs holds. What the results of a job are like is given. -/
structure Fits (jobs : List Job) (Result : Nat → Fetched → Prop) (f : Fetching) : Prop where
  waiting_eq : f.waiting = jobs.drop f.started
  started_le : f.started ≤ jobs.length
  number_eq : ∀ i s, f.held[i]? = some s → s.number = f.taken.length + i
  taken : ∀ i result, f.taken[i]? = some result → Result i result
  held : ∀ s ∈ f.held, ∀ result, s.result = some result → Result s.number result

variable {jobs : List Job} {Result : Nat → Fetched → Prop} {f g : Fetching} {number : Nat}
  {job : Job}

theorem fits_create (limit : Nat) : Fits jobs Result (create limit jobs) where
  waiting_eq := rfl
  started_le := Nat.zero_le _
  number_eq := by simp [create]
  taken := by simp [create]
  held := by simp [create]

/-- The front of the buffer consists of jobs that have ended. -/
theorem endedFront_spec (held : List Slot) :
    ∃ front, held = front ++ (endedFront held).2 ∧
      front.map (·.result) = (endedFront held).1.map some := by
  induction held with
  | nil => exact ⟨[], rfl, rfl⟩
  | cons s held ih =>
    obtain ⟨front, hheld, hfront⟩ := ih
    unfold endedFront
    split
    · exact ⟨[], rfl, rfl⟩
    · rename_i r hr
      refine ⟨s :: front, ?_, ?_⟩
      · rw [List.cons_append, ← hheld]
      · simp [hr, hfront]

theorem next?_eq_some (hf : f.next? = some (number, job, g)) :
    ∃ rest, f.waiting = job :: rest ∧ number = f.started ∧
      g = { f with waiting := rest, held := f.held ++ [⟨f.started, none⟩] } := by
  unfold next? at hf
  split at hf
  · cases hf
  · rename_i rest hw
    split at hf
    · cases hf
      exact ⟨rest, hw, rfl, rfl⟩
    · cases hf

/-- The job that is started is the next one of the list. -/
theorem Fits.job_eq (hf : Fits jobs Result f) (hn : f.next? = some (number, job, g)) :
    jobs[number]? = some job := by
  obtain ⟨rest, hw, rfl, -⟩ := next?_eq_some hn
  have hdrop := hf.waiting_eq
  rw [hw] at hdrop
  have := congrArg List.head? hdrop
  simpa [List.head?_drop] using this.symm

theorem Fits.launch (hf : Fits jobs Result f) (hn : f.next? = some (number, job, g)) :
    Fits jobs Result g := by
  have hjob := hf.job_eq hn
  obtain ⟨rest, hw, rfl, rfl⟩ := next?_eq_some hn
  have hlt : f.started < jobs.length := (List.getElem?_eq_some_iff.1 hjob).1
  refine ⟨?_, ?_, ?_, hf.taken, ?_⟩
  · have hdrop := hf.waiting_eq
    rw [hw] at hdrop
    have htail := congrArg List.tail hdrop
    simpa [started, Nat.add_assoc, List.tail_drop] using htail
  · simp only [started, List.length_append, List.length_singleton] at hlt ⊢
    omega
  · intro i s hs
    by_cases hi : i < f.held.length
    · rw [List.getElem?_append_left hi] at hs
      exact hf.number_eq i s hs
    · rw [List.getElem?_append_right (by omega)] at hs
      obtain ⟨h0, rfl⟩ : i - f.held.length = 0 ∧ ⟨f.started, none⟩ = s := by
        rw [List.getElem?_singleton] at hs
        split at hs
        · rename_i h0
          exact ⟨h0, Option.some.inj hs⟩
        · cases hs
      simp only [started]
      omega
  · intro s hs result hr
    obtain hs | hs := List.mem_append.1 hs
    · exact hf.held s hs result hr
    · rw [List.mem_singleton] at hs
      subst hs
      cases hr

theorem unresolved_launch (hn : f.next? = some (number, job, g)) :
    unresolved g.held = unresolved f.held ++ [number] := by
  obtain ⟨rest, -, rfl, rfl⟩ := next?_eq_some hn
  simp [unresolved]

/-- Jobs in the buffer have different numbers. -/
theorem Fits.eq_of_number_eq (hf : Fits jobs Result f) {s u : Slot} (hs : s ∈ f.held)
    (hu : u ∈ f.held) (heq : s.number = u.number) : s = u := by
  obtain ⟨i, hi⟩ := List.mem_iff_getElem?.1 hs
  obtain ⟨j, hj⟩ := List.mem_iff_getElem?.1 hu
  have hij : i = j := by
    have h₁ := hf.number_eq i s hi
    have h₂ := hf.number_eq j u hj
    omega
  rw [hij, hj] at hi
  exact (Option.some.inj hi).symm

theorem mem_unresolved {held : List Slot} :
    number ∈ unresolved held ↔ ∃ s ∈ held, s.result = none ∧ s.number = number := by
  simp [unresolved, and_assoc]

theorem Fits.nodup_unresolved (hf : Fits jobs Result f) : (unresolved f.held).Nodup := by
  have hlt : f.held.Pairwise fun s u => s.number ≠ u.number := by
    rw [List.pairwise_iff_getElem]
    intro i j hi hj hij heq
    have h₁ := hf.number_eq i _ (List.getElem?_eq_getElem hi)
    have h₂ := hf.number_eq j _ (List.getElem?_eq_getElem hj)
    omega
  exact List.Pairwise.map _ (fun _ _ hab => hab) (hlt.filter _)

/-- What is known of the results of jobs that have ended may change as long as it grows. -/
theorem Fits.mono {Result' : Nat → Fetched → Prop} (hf : Fits jobs Result f)
    (hmono : ∀ i result, i ∉ unresolved f.held → Result i result → Result' i result) :
    Fits jobs Result' f where
  waiting_eq := hf.waiting_eq
  started_le := hf.started_le
  number_eq := hf.number_eq
  taken := by
    intro i result hi
    refine hmono i result ?_ (hf.taken i result hi)
    rw [mem_unresolved]
    rintro ⟨s, hs, -, rfl⟩
    obtain ⟨j, hj⟩ := List.mem_iff_getElem?.1 hs
    have hnumber := hf.number_eq j s hj
    have hlt := (List.getElem?_eq_some_iff.1 hi).1
    omega
  held := by
    intro s hs result hr
    refine hmono s.number result ?_ (hf.held s hs result hr)
    rw [mem_unresolved]
    rintro ⟨u, hu, hnone, heq⟩
    rw [hf.eq_of_number_eq hu hs heq, hr] at hnone
    cases hnone

/-- The jobs in the buffer once a job has ended. -/
def resolve (held : List Slot) (number : Nat) (result : Fetched) : List Slot :=
  held.map fun s => if s.number = number then { s with result := some result } else s

theorem unresolved_resolve (held : List Slot) (number : Nat) (result : Fetched) :
    unresolved (resolve held number result) = (unresolved held).filter fun n => n ≠ number := by
  induction held with
  | nil => rfl
  | cons s held ih =>
    unfold unresolved resolve at ih ⊢
    by_cases hn : s.number = number
    · simp only [List.map_cons, hn, if_true, List.filter_cons, Option.isNone_some,
        Bool.false_eq_true, if_false, ih]
      split <;> simp [hn]
    · simp only [List.map_cons, hn, if_false, List.filter_cons]
      split <;> simp [hn, ih]

theorem unresolved_land (f : Fetching) (number : Nat) (result : Fetched) :
    unresolved (f.finish number result).held
      = (unresolved f.held).filter fun n => n ≠ number := by
  obtain ⟨front, hheld, hfront⟩ := endedFront_spec (resolve f.held number result)
  have hnone : front.filter (fun s => s.result.isNone) = [] := by
    rw [List.filter_eq_nil_iff]
    intro s hs
    have hmem := List.mem_map_of_mem (f := (·.result)) hs
    rw [hfront] at hmem
    obtain ⟨r, -, hr⟩ := List.mem_map.1 hmem
    simp [← hr]
  calc unresolved (f.finish number result).held
      = unresolved (front ++ (endedFront (resolve f.held number result)).2) := by
        simp only [unresolved, List.filter_append, hnone, List.nil_append]
        rfl
    _ = unresolved (resolve f.held number result) := by rw [← hheld]
    _ = (unresolved f.held).filter fun n => n ≠ number := unresolved_resolve ..

/-- Once a job has ended, every result in the buffer still belongs to its job. -/
theorem Fits.resolve (hf : Fits jobs Result f) {result : Fetched} (hr : Result number result)
    {i : Nat} {s : Slot} (hs : (Fetching.resolve f.held number result)[i]? = some s) :
    s.number = f.taken.length + i ∧ ∀ r, s.result = some r → Result s.number r := by
  rw [Fetching.resolve, List.getElem?_map, Option.map_eq_some_iff] at hs
  obtain ⟨u, hu, rfl⟩ := hs
  have hnumber := hf.number_eq i u hu
  split
  · rename_i heq
    refine ⟨hnumber, ?_⟩
    rintro r ⟨⟩
    simpa [heq] using hr
  · exact ⟨hnumber, hf.held u (List.mem_of_getElem? hu)⟩

theorem started_finish (f : Fetching) (number : Nat) (result : Fetched) :
    (f.finish number result).started = f.started := by
  obtain ⟨front, hheld, hfront⟩ := endedFront_spec (resolve f.held number result)
  have hlength : f.held.length
      = front.length + (endedFront (resolve f.held number result)).2.length := by
    rw [← List.length_append, ← hheld, resolve, List.length_map]
  have hfront' : front.length = (endedFront (resolve f.held number result)).1.length := by
    simpa using congrArg List.length hfront
  rw [started, started]
  have hmap : (f.finish number result).held
      = (endedFront (resolve f.held number result)).2 := rfl
  have htaken : (f.finish number result).taken
      = f.taken ++ (endedFront (resolve f.held number result)).1 := rfl
  rw [hmap, htaken, List.length_append]
  omega

theorem Fits.land (hf : Fits jobs Result f) {result : Fetched} (hr : Result number result) :
    Fits jobs Result (f.finish number result) := by
  obtain ⟨front, hheld, hfront⟩ := endedFront_spec (Fetching.resolve f.held number result)
  have hlength : front.length = (endedFront (Fetching.resolve f.held number result)).1.length := by
    simpa using congrArg List.length hfront
  have htaken : (f.finish number result).taken
      = f.taken ++ (endedFront (Fetching.resolve f.held number result)).1 := rfl
  have hrest : (f.finish number result).held
      = (endedFront (Fetching.resolve f.held number result)).2 := rfl
  have hmem : ∀ i s, (f.finish number result).held[i]? = some s →
      (Fetching.resolve f.held number result)[front.length + i]? = some s := by
    intro i s hs
    rw [hheld, List.getElem?_append_right (by omega)]
    simpa [hrest] using hs
  refine ⟨?_, ?_, ?_, ?_, ?_⟩
  · rw [waiting_finish, started_finish]
    exact hf.waiting_eq
  · rw [started_finish]
    exact hf.started_le
  · intro i s hs
    rw [(hf.resolve hr (hmem i s hs)).1, htaken, List.length_append, hlength]
    omega
  · intro i r hi
    rw [htaken] at hi
    by_cases hlt : i < f.taken.length
    · rw [List.getElem?_append_left hlt] at hi
      exact hf.taken i r hi
    · rw [List.getElem?_append_right (by omega)] at hi
      have hsome : (front.map (·.result))[i - f.taken.length]? = some (some r) := by
        rw [hfront, List.getElem?_map, hi]
        rfl
      rw [List.getElem?_map, Option.map_eq_some_iff] at hsome
      obtain ⟨s, hs, hsr⟩ := hsome
      have hs' : (Fetching.resolve f.held number result)[i - f.taken.length]? = some s := by
        rw [hheld, List.getElem?_append_left (List.getElem?_eq_some_iff.1 hs).1]
        exact hs
      obtain ⟨hnumber, hresult⟩ := hf.resolve hr hs'
      have hi' : s.number = i := by omega
      rw [← hi']
      exact hresult r hsr
  · intro s hs r hsr
    obtain ⟨i, hi⟩ := List.mem_iff_getElem?.1 hs
    exact (hf.resolve hr (hmem i s hi)).2 r hsr

/-- **A result for each job, in order.** -/
theorem Fits.results (hf : Fits jobs Result f) (hover : f.isOver = true) :
    f.taken.length = jobs.length ∧ ∀ i result, f.taken[i]? = some result → Result i result := by
  simp only [isOver, Bool.and_eq_true, List.isEmpty_iff] at hover
  obtain ⟨hwaiting, hheld⟩ := hover
  refine ⟨?_, hf.taken⟩
  have hdrop := hf.waiting_eq
  rw [hwaiting, eq_comm, List.drop_eq_nil_iff] at hdrop
  have hle := hf.started_le
  simp only [started, hheld, List.length_nil, Nat.add_zero] at hdrop hle
  omega

end ContentSync.Engine.Fetching
