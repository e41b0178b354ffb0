import ContentSync.Proofs.Engine.Run

/-!
# Calls in a history

* `calls` — the calls that were started, in order;
* `Brought` — a call was answered, and brought something.
-/

set_option autoImplicit false

namespace ContentSync

namespace Call

def isFetch : Call → Bool
  | fetch _ _ _ => true
  | _ => false

def isWrite : Call → Bool
  | write _ _ _ => true
  | _ => false

def isCommit : Call → Bool
  | commit _ _ => true
  | _ => false

end Call

namespace Exchange

/-- The result of a call is brought by the answer to its request. -/
inductive Brings (c : Call) (x : c.Answer) : Exchange → Prop
  | wait : Brings c x ⟨.wait c, .ok x⟩
  | call (limit : Duration) : Brings c x ⟨.call c limit, some (.ok x)⟩
  | attempt (limit : Duration) : Brings c x ⟨.attempt c limit, .answered (.ok x)⟩

theorem Brings.call? {c : Call} {x : c.Answer} {e : Exchange} (hb : e.Brings c x) :
    e.request.call? = some c := by
  cases hb <;> rfl

end Exchange

namespace Engine

variable {t u : List Moment}

/-- The calls that were started. -/
def calls (t : List Moment) : List Call :=
  t.filterMap fun m =>
    match m with
    | .asked _ r => r.call?
    | _ => none

/-- A call has been answered successfully. -/
def Brought (t : List Moment) (c : Call) (x : c.Answer) : Prop :=
  ∃ w e, Moment.answered w e ∈ t ∧ e.Brings c x

@[simp] theorem calls_append : calls (t ++ u) = calls t ++ calls u := List.filterMap_append

theorem mem_calls {c : Call} :
    c ∈ calls t ↔ ∃ w r, Moment.asked w r ∈ t ∧ r.call? = some c := by
  simp only [calls, List.mem_filterMap]
  constructor
  · rintro ⟨m, hm, heq⟩
    split at heq
    · exact ⟨_, _, hm, heq⟩
    · cases heq
  · rintro ⟨w, r, hm, heq⟩
    exact ⟨_, hm, heq⟩

/-- A call was started at some place of the history. -/
theorem exists_of_mem_calls {c : Call} (hc : c ∈ calls t) :
    ∃ t₁ w r t₂, t = t₁ ++ .asked w r :: t₂ ∧ r.call? = some c := by
  obtain ⟨w, r, hm, heq⟩ := mem_calls.1 hc
  obtain ⟨t₁, t₂, rfl⟩ := List.append_of_mem hm
  exact ⟨t₁, w, r, t₂, rfl, heq⟩

theorem Brought.append {c : Call} {x : c.Answer} (hb : Brought t c x) : Brought (t ++ u) c x := by
  obtain ⟨w, e, hm, he⟩ := hb
  exact ⟨w, e, List.mem_append_left _ hm, he⟩

/-- What a history has brought is brought by one of its answers. -/
theorem brought_append_answered {w : Worker} {e : Exchange} {c : Call} {x : c.Answer} :
    Brought (t ++ [.answered w e]) c x ↔ Brought t c x ∨ e.Brings c x := by
  constructor
  · rintro ⟨w', e', he, hb⟩
    simp only [List.mem_append, List.mem_singleton, Moment.answered.injEq] at he
    obtain he | ⟨-, rfl⟩ := he
    · exact .inl ⟨w', e', he, hb⟩
    · exact .inr hb
  · rintro (hb | hb)
    · exact hb.append
    · exact ⟨w, e, by simp, hb⟩

theorem brought_append_other {m : Moment} (hm : ∀ w e, m ≠ .answered w e) {c : Call}
    {x : c.Answer} : Brought (t ++ [m]) c x ↔ Brought t c x := by
  constructor
  · rintro ⟨w, e, he, hb⟩
    simp only [List.mem_append, List.mem_singleton] at he
    obtain he | rfl := he
    · exact ⟨w, e, he, hb⟩
    · exact absurd rfl (hm w e)
  · exact fun hb => hb.append

end Engine

end ContentSync
