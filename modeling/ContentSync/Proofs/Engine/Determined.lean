import ContentSync.Engine.Fetching
import ContentSync.Proofs.Engine.RetryPath

/-!
# Answers determine paths

A program has no choice of its own: when its requests are answered alike, it takes the same path to the
same value.

* `Concordant` / `Ends.unique` — two paths on which equal requests have equal answers are the same;
* `Matching` — two lists agree as far as both go;
* `ends_withRetry_unique` — of a call with retries it is enough that its attempts end alike, one by
  one, since the same attempt is made several times.
-/

set_option autoImplicit false

namespace ContentSync

namespace Program

variable {α : Type} {h h' k k' : List Exchange}

/-- Equal requests have equal answers in two histories. -/
def Concordant (h h' : List Exchange) : Prop :=
  ∀ e ∈ h, ∀ e' ∈ h', e.request = e'.request → e = e'

theorem Concordant.mono (hc : Concordant h h') (hk : k ⊆ h) (hk' : k' ⊆ h') : Concordant k k' :=
  fun e he e' he' hr => hc e (hk he) e' (hk' he') hr

/-- **Two paths through a program on which equal requests have equal answers are the same**, and lead to
the same value. -/
theorem Ends.unique {q : Program α} {a b : α} (hp : q.Ends h a) (hq : q.Ends h' b)
    (hc : Concordant h h') : h = h' ∧ a = b := by
  induction q generalizing h h' with
  | done c =>
    obtain ⟨rfl, rfl⟩ := ends_done.1 hp
    obtain ⟨rfl, rfl⟩ := ends_done.1 hq
    exact ⟨rfl, rfl⟩
  | ask r next ih =>
    obtain ⟨x, k, rfl, hnext⟩ := ends_ask.1 hp
    obtain ⟨x', k', rfl, hnext'⟩ := ends_ask.1 hq
    have hfirst : (⟨r, x⟩ : Exchange) = ⟨r, x'⟩ := hc _ List.mem_cons_self _ List.mem_cons_self rfl
    cases hfirst
    obtain ⟨rfl, rfl⟩ :=
      ih x hnext hnext' (hc.mono (List.subset_cons_self ..) (List.subset_cons_self ..))
    exact ⟨rfl, rfl⟩

end Program

namespace Engine

open Program

/-- Two lists agree as far as both of them go. -/
def Matching {α : Type} (l l' : List α) : Prop :=
  ∀ (n : Nat) (a a' : α), l[n]? = some a → l'[n]? = some a' → a = a'

theorem Matching.of_cons {α : Type} {a a' : α} {l l' : List α}
    (hm : Matching (a :: l) (a' :: l')) : a = a' ∧ Matching l l' :=
  ⟨hm 0 a a' rfl rfl, fun n b b' hb hb' => hm (n + 1) b b' hb hb'⟩

section

variable {p : SyncPolicy} {what : String} {c : Call} {h h' : List Exchange}

/-- Tells how the attempts of a call have ended. -/
structure EndingsOf (c : Call) (tells : Exchange → Option (Ending c.Answer)) : Prop where
  attempt : ∀ limit ending, tells ⟨.attempt c limit, ending⟩ = some ending
  pause : ∀ length cut, tells ⟨.pause length, cut⟩ = none

variable {tells : Exchange → Option (Ending c.Answer)}

theorem EndingsOf.filterMap_attempt (ht : EndingsOf c tells) {limit : Duration}
    {ending : Ending c.Answer} :
    ((⟨.attempt c limit, ending⟩ : Exchange) :: h).filterMap tells =
      ending :: h.filterMap tells := by
  simp [ht.attempt]

theorem EndingsOf.filterMap_pause (ht : EndingsOf c tells) {length : Duration} {cut : Bool} :
    ((⟨.pause length, cut⟩ : Exchange) :: h).filterMap tells = h.filterMap tells := by
  simp [ht.pause]

/-- The courses of two calls with retries are the same when their attempts end alike and no pause is
cut short. -/
theorem ends_retrying_unique (ht : EndingsOf c tells) {left attempt : Nat}
    {x x' : Nat × Except Failure c.Answer} (hr : (retrying p what c left attempt).Ends h x)
    (hr' : (retrying p what c left attempt).Ends h' x')
    (hm : Matching (h.filterMap tells) (h'.filterMap tells))
    (huncut : ∀ length, (⟨.pause length, true⟩ : Exchange) ∉ h)
    (huncut' : ∀ length, (⟨.pause length, true⟩ : Exchange) ∉ h') : h = h' ∧ x = x' := by
  induction left generalizing attempt h h' with
  | zero =>
    obtain ⟨n, result⟩ := x
    obtain ⟨n', result'⟩ := x'
    obtain ⟨ending, rfl, rfl, rfl⟩ := ends_retrying_zero.1 hr
    obtain ⟨ending', rfl, rfl, rfl⟩ := ends_retrying_zero.1 hr'
    simp only [ht.filterMap_attempt] at hm
    obtain ⟨rfl, -⟩ := hm.of_cons
    exact ⟨rfl, rfl⟩
  | succ left ih =>
    obtain ⟨n, result⟩ := x
    obtain ⟨n', result'⟩ := x'
    obtain ⟨ending, k, rfl, hk⟩ := ends_retrying_succ.1 hr
    obtain ⟨ending', k', rfl, hk'⟩ := ends_retrying_succ.1 hr'
    simp only [ht.filterMap_attempt] at hm
    obtain ⟨rfl, hrest⟩ := hm.of_cons
    obtain ⟨rfl, rfl, rfl, hfinal⟩ | ⟨f, cut, l, hs, hf, rfl, hl⟩ := hk
    · obtain ⟨rfl, rfl, rfl, -⟩ | ⟨f, _, _, hs, hf, -⟩ := hk'
      · exact ⟨rfl, rfl⟩
      · rw [hfinal f hs] at hf
        cases hf
    · obtain ⟨-, -, -, hfinal⟩ | ⟨_, cut', l', -, -, rfl, hl'⟩ := hk'
      · rw [hfinal f hs] at hf
        cases hf
      · -- Neither pause was cut short, so both go on with another attempt.
        obtain rfl : cut = false := by
          rw [← Bool.not_eq_true]
          rintro rfl
          exact huncut (p.retry.delay attempt) (by simp)
        obtain rfl : cut' = false := by
          rw [← Bool.not_eq_true]
          rintro rfl
          exact huncut' (p.retry.delay attempt) (by simp)
        simp only [ht.filterMap_pause] at hrest
        simp only [Bool.false_eq_true, if_false] at hl hl'
        obtain ⟨rfl, heq⟩ := ih hl hl' hrest (fun length he => huncut length (by simp [he]))
          fun length he => huncut' length (by simp [he])
        exact ⟨rfl, heq⟩

/-- **Two calls with retries whose attempts end alike are the same.** -/
theorem ends_withRetry_unique (ht : EndingsOf c tells) {x x' : Nat × Except Failure c.Answer}
    (hr : (withRetry p what c).Ends h x) (hr' : (withRetry p what c).Ends h' x')
    (hm : Matching (h.filterMap tells) (h'.filterMap tells))
    (huncut : ∀ length, (⟨.pause length, true⟩ : Exchange) ∉ h)
    (huncut' : ∀ length, (⟨.pause length, true⟩ : Exchange) ∉ h') : h = h' ∧ x = x' :=
  ends_retrying_unique ht hr hr' hm huncut huncut'

end

end Engine

end ContentSync
