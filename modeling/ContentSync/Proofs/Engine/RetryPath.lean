import ContentSync.Engine.Retry
import ContentSync.Proofs.Engine.Path

/-!
# Paths through bounded and repeated calls

* `ends_bounded` — a bounded call is one exchange, and taking too long is a failure;
* `ends_retrying_zero`, `ends_retrying_succ` — one attempt of a call with retries;
* `asks_withRetry` — a call with retries consists of attempts and pauses, and makes no request once
  it has been told of a cancellation;
* `ends_withRetry_ok_iff` / `ends_withRetry_cancelled` — an attempt that succeeds is the last one and
  its answer the result, and so is a cancellation.
-/

set_option autoImplicit false

namespace ContentSync

/-- Tells a call with retries that the epoch has been cancelled. -/
def Exchange.showsCancellation : Exchange → Bool
  | ⟨.attempt _ _, .cancelled⟩ => true
  | ⟨.pause _, cut⟩ => cut
  | _ => false

namespace Engine

open Program

/-- What a bounded call brings, late or not. -/
def boundedResult (p : SyncPolicy) (what : String) (late : String → Failure) {α : Type} :
    Option (Except Failure α) → Except Failure α
  | some result => result
  | none => .error (late (overdueText what p.ioTimeout))

theorem boundedResult_eq_ok_iff {p : SyncPolicy} {what : String} {late : String → Failure}
    {α : Type} {a : Option (Except Failure α)} {x : α} :
    boundedResult p what late a = .ok x ↔ a = some (.ok x) := by
  cases a <;> simp [boundedResult]

theorem asks_bounded {p : SyncPolicy} {what : String} {late : String → Failure} {c : Call}
    {h : List Exchange} {r : Request} :
    @Asks (no_index (Except Failure c.Answer)) (bounded p what late c) h r ↔
      h = [] ∧ r = .call c p.ioTimeout := by
  simp only [bounded, asks_bind, asks_request, ends_request]
  constructor
  · rintro (hr | ⟨k, l, a, rfl, -, hl⟩)
    · exact hr
    · cases a <;> simp at hl
  · exact .inl

theorem ends_bounded {p : SyncPolicy} {what : String} {late : String → Failure} {c : Call}
    {h : List Exchange} {result : Except Failure c.Answer} :
    @Ends (no_index (Except Failure c.Answer)) (bounded p what late c) h result ↔
      ∃ a, h = [⟨.call c p.ioTimeout, a⟩] ∧ result = boundedResult p what late a := by
  simp only [bounded, ends_bind, ends_request]
  constructor
  · rintro ⟨_, l, a, rfl, rfl, hl⟩
    cases a <;> (simp only [ends_pure] at hl; obtain ⟨rfl, rfl⟩ := hl; exact ⟨_, rfl, rfl⟩)
  · rintro ⟨a, rfl, rfl⟩
    refine ⟨_, [], a, rfl, rfl, ?_⟩
    cases a <;> simp [boundedResult]

section

variable {p : SyncPolicy} {what : String} {c : Call} {h : List Exchange}

theorem showsCancellation_attempt {limit : Duration} {e : Ending c.Answer} :
    Exchange.showsCancellation ⟨.attempt c limit, e⟩ = true ↔ e = .cancelled := by
  cases e <;> simp [Exchange.showsCancellation]

theorem settle_eq_ok_iff {α : Type} {e : Ending α} {x : α} :
    settle p what e = .ok x ↔ e = .answered (.ok x) := by
  cases e <;> simp [settle]

/-- A failure that may pass is no cancellation, so another attempt may follow. -/
theorem showsCancellation_of_transient {ending : Ending c.Answer} {f : Failure}
    (hs : settle p what ending = .error f) (ht : f.transient = true) :
    Exchange.showsCancellation ⟨.attempt c p.fetchTimeout, ending⟩ = false := by
  rw [Bool.eq_false_iff]
  intro hc
  rw [showsCancellation_attempt] at hc
  subst hc
  cases hs
  simp [Failure.transient] at ht

/-- An attempt is the last one, or its failure may pass and a pause follows. -/
theorem ends_retrying_succ {left number n : Nat} {result : Except Failure c.Answer} :
    (retrying p what c (left + 1) number).Ends h (n, result) ↔
      ∃ ending k, h = ⟨.attempt c p.fetchTimeout, ending⟩ :: k ∧
        ((k = [] ∧ n = number ∧ result = settle p what ending ∧
            ∀ f, settle p what ending = .error f → f.transient = false) ∨
          ∃ f cut l, settle p what ending = .error f ∧ f.transient = true ∧
            k = ⟨.pause (p.retry.delay number), cut⟩ :: l ∧
            if cut = true then l = [] ∧ n = number ∧ result = .error .cancelled
            else (retrying p what c left (number + 1)).Ends l (n, result)) := by
  simp only [retrying, ends_bind, ends_request]
  constructor
  · rintro ⟨_, k, ending, rfl, rfl, hk⟩
    refine ⟨ending, k, rfl, ?_⟩
    cases hs : settle p what ending with
    | ok x =>
      simp only [hs, ends_pure, Prod.mk.injEq] at hk
      obtain ⟨rfl, rfl, rfl⟩ := hk
      refine .inl ⟨rfl, rfl, rfl, ?_⟩
      rintro _ ⟨⟩
    | error f =>
      simp only [hs] at hk
      cases hf : f.transient with
      | false =>
        simp only [hf, Bool.false_eq_true, if_false, ends_pure, Prod.mk.injEq] at hk
        obtain ⟨rfl, rfl, rfl⟩ := hk
        refine .inl ⟨rfl, rfl, rfl, ?_⟩
        rintro _ ⟨⟩
        exact hf
      | true =>
        simp only [hf, if_true, ends_bind, ends_request] at hk
        obtain ⟨_, l, cut, rfl, rfl, hl⟩ := hk
        refine .inr ⟨f, cut, l, rfl, hf, rfl, ?_⟩
        cases cut with
        | true => simpa [Prod.mk.injEq] using hl
        | false => simpa using hl
  · rintro ⟨ending, k, rfl, ⟨rfl, rfl, rfl, hfinal⟩ | ⟨f, cut, l, hs, hf, rfl, hl⟩⟩
    · refine ⟨_, [], ending, rfl, rfl, ?_⟩
      cases hs : settle p what ending with
      | ok x => simp
      | error f => simp [hfinal f hs]
    · refine ⟨_, _, ending, rfl, rfl, ?_⟩
      simp only [hs, hf, if_true, ends_bind, ends_request]
      refine ⟨_, l, cut, rfl, rfl, ?_⟩
      cases cut with
      | true => simpa [Prod.mk.injEq] using hl
      | false => simpa using hl

theorem ends_retrying_zero {number n : Nat} {result : Except Failure c.Answer} :
    (retrying p what c 0 number).Ends h (n, result) ↔
      ∃ ending, h = [⟨.attempt c p.fetchTimeout, ending⟩] ∧ n = number ∧
        result = settle p what ending := by
  simp only [retrying, ends_bind, ends_request, ends_pure, Prod.mk.injEq]
  constructor
  · rintro ⟨_, _, ending, rfl, rfl, rfl, rfl, rfl⟩
    exact ⟨ending, rfl, rfl, rfl⟩
  · rintro ⟨ending, rfl, rfl, rfl⟩
    exact ⟨_, _, ending, rfl, rfl, rfl, rfl, rfl⟩

/-- The result of an attempt that is the last one. -/
theorem ends_last (ending : Ending c.Answer) :
    (∀ x, settle p what ending = .ok x ↔
        (⟨.attempt c p.fetchTimeout, .answered (.ok x)⟩ : Exchange) ∈
          [⟨.attempt c p.fetchTimeout, ending⟩]) ∧
      (∀ e ∈ [(⟨.attempt c p.fetchTimeout, ending⟩ : Exchange)],
        e.showsCancellation = true → settle p what ending = .error .cancelled) := by
  refine ⟨fun x => ?_, fun e he hc => ?_⟩
  · rw [settle_eq_ok_iff]
    simp [eq_comm]
  · obtain rfl := List.mem_singleton.1 he
    rw [showsCancellation_attempt] at hc
    rw [hc, settle]

theorem asks_retrying {left attempt : Nat} {r : Request}
    (hr : (retrying p what c left attempt).Asks h r) :
    (r = .attempt c p.fetchTimeout ∨ ∃ length, r = .pause length) ∧
      ∀ e ∈ h, e.showsCancellation = false := by
  induction left generalizing attempt h with
  | zero =>
    simp only [retrying, asks_bind, asks_request, asks_pure, and_false, exists_false,
      or_false] at hr
    obtain ⟨rfl, rfl⟩ := hr
    exact ⟨.inl rfl, by simp⟩
  | succ left ih =>
    simp only [retrying, asks_bind, asks_request, ends_request] at hr
    obtain ⟨rfl, rfl⟩ | ⟨_, l, ending, rfl, rfl, hl⟩ := hr
    · exact ⟨.inl rfl, by simp⟩
    cases hs : settle p what ending with
    | ok x => simp [hs] at hl
    | error f =>
      simp only [hs] at hl
      by_cases ht : f.transient
      · have hshow := showsCancellation_of_transient hs ht
        simp only [ht, if_true, asks_bind, asks_request, ends_request] at hl
        obtain ⟨rfl, rfl⟩ | ⟨_, l', cut, rfl, rfl, hl⟩ := hl
        · exact ⟨.inr ⟨_, rfl⟩, by simp [hshow]⟩
        cases cut with
        | true => simp at hl
        | false =>
          simp only [Bool.false_eq_true, if_false] at hl
          obtain ⟨hr, hall⟩ := ih hl
          refine ⟨hr, ?_⟩
          intro e he
          simp only [List.cons_append, List.nil_append, List.mem_cons] at he
          obtain rfl | rfl | he := he
          · exact hshow
          · rfl
          · exact hall e he
      · simp [ht] at hl

theorem ends_retrying {left attempt n : Nat} {result : Except Failure c.Answer}
    (hr : (retrying p what c left attempt).Ends h (n, result)) :
    (∀ x, result = .ok x ↔ ⟨.attempt c p.fetchTimeout, .answered (.ok x)⟩ ∈ h) ∧
      (∀ e ∈ h, e.showsCancellation = true → result = .error .cancelled) := by
  induction left generalizing attempt h with
  | zero =>
    obtain ⟨ending, rfl, -, rfl⟩ := ends_retrying_zero.1 hr
    exact ends_last ending
  | succ left ih =>
    obtain ⟨ending, k, rfl, hk⟩ := ends_retrying_succ.1 hr
    obtain ⟨rfl, -, rfl, -⟩ | ⟨f, cut, l, hs, hf, rfl, hl⟩ := hk
    · exact ends_last ending
    · have hshow := showsCancellation_of_transient hs hf
      have hne : ∀ x, ending ≠ .answered (.ok x) := by
        intro x hx
        rw [← @settle_eq_ok_iff p what, hs] at hx
        cases hx
      cases cut with
      | true =>
        obtain ⟨rfl, -, rfl⟩ := (if_pos rfl).mp hl
        exact ⟨fun x => by simp [Ne.symm (hne x)], fun _ _ _ => rfl⟩
      | false =>
        obtain ⟨hok, hcut⟩ := ih ((if_neg Bool.false_ne_true).mp hl)
        refine ⟨fun x => by simp [hok x, Ne.symm (hne x)], fun e he hc => ?_⟩
        rcases List.mem_cons.1 he with rfl | he
        · rw [hshow] at hc
          cases hc
        · rcases List.mem_cons.1 he with rfl | he
          · cases hc
          · exact hcut e he hc

/-- **Requests of a call with retries.** -/
theorem asks_withRetry {r : Request} (hr : (withRetry p what c).Asks h r) :
    (r = .attempt c p.fetchTimeout ∨ ∃ length, r = .pause length) ∧
      ∀ e ∈ h, e.showsCancellation = false := asks_retrying hr

theorem ends_withRetry_ok_iff {n : Nat} {result : Except Failure c.Answer}
    (hr : (withRetry p what c).Ends h (n, result)) (x : c.Answer) :
    result = .ok x ↔ ⟨.attempt c p.fetchTimeout, .answered (.ok x)⟩ ∈ h := (ends_retrying hr).1 x

theorem ends_withRetry_cancelled {n : Nat} {result : Except Failure c.Answer}
    (hr : (withRetry p what c).Ends h (n, result)) {e : Exchange} (he : e ∈ h)
    (hc : e.showsCancellation = true) : result = .error .cancelled := (ends_retrying hr).2 e he hc

end

end Engine

end ContentSync
