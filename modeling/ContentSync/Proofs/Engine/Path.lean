import ContentSync.Engine.Program

/-!
# Paths through programs

A program is a tree of requests; the answers it is given choose a path through it. The path is the
list of exchanges, and what a program does on any path is read off its parts.

* `Program.Path` — from a program along exchanges to what is left of it;
* `Program.Asks` / `Program.Ends` — the request made, or the value reached, at the end of a path;
* `asks_bind` / `ends_bind` — a path through two programs in a row runs through the first one and
  goes on in the second;
* `Path.asks_of_append` — every exchange on a path answers a request made there;
* `Ends.eq_nil_of_append` — no path goes on behind the end of another one;
* `Ends.eq_of_append_eq` — paths that begin alike end alike.
-/

set_option autoImplicit false

namespace ContentSync

/-- A request and the answer to it. -/
structure Exchange where
  request : Request
  answer : request.Answer

namespace Program

variable {α β : Type}

/-- The exchanges between a program and what is left of it. -/
inductive Path : Program α → List Exchange → Program α → Prop
  | here (p : Program α) : Path p [] p
  | along {r : Request} {next : r.Answer → Program α} {h : List Exchange} {q : Program α}
      (a : r.Answer) (rest : Path (next a) h q) : Path (ask r next) (⟨r, a⟩ :: h) q

/-- The request that a program makes after some exchanges. -/
def Asks (p : Program α) (h : List Exchange) (r : Request) : Prop := ∃ next, p.Path h (ask r next)

/-- The value with which a program is done after some exchanges. -/
def Ends (p : Program α) (h : List Exchange) (a : α) : Prop := p.Path h (done a)

theorem Path.append {p q s : Program α} {h k : List Exchange} (hp : p.Path h q)
    (hq : q.Path k s) : p.Path (h ++ k) s := by
  induction hp with
  | here => exact hq
  | along a _ ih => exact .along a (ih hq)

/-- One more answer. -/
theorem Path.answer {p : Program α} {h : List Exchange} {r : Request}
    {next : r.Answer → Program α} (hp : p.Path h (ask r next)) (a : r.Answer) :
    p.Path (h ++ [⟨r, a⟩]) (next a) :=
  hp.append (.along a (.here _))

/-- The exchanges of a path answer the requests made on it. -/
theorem Path.asks_of_append {p q : Program α} {h k : List Exchange} {e : Exchange}
    (hp : p.Path (h ++ e :: k) q) : p.Asks h e.request := by
  induction h generalizing p with
  | nil => cases hp with | along a rest => exact ⟨_, .here _⟩
  | cons d h ih =>
    cases hp with
    | along a rest =>
      obtain ⟨next, hnext⟩ := ih rest
      exact ⟨next, .along a hnext⟩

theorem Path.asks_of_mem {p q : Program α} {h : List Exchange} {e : Exchange} (hp : p.Path h q)
    (he : e ∈ h) : ∃ k, p.Asks k e.request := by
  obtain ⟨k, l, rfl⟩ := List.append_of_mem he
  exact ⟨k, hp.asks_of_append⟩

/-- A program that is done goes nowhere. -/
theorem Path.of_done {a : α} {h : List Exchange} {q : Program α} (hp : (done a).Path h q) :
    h = [] ∧ q = done a := by
  cases hp
  exact ⟨rfl, rfl⟩

/-- A path that reaches the end of a program is not continued by another one. -/
theorem Ends.eq_nil_of_append {p q : Program α} {h k : List Exchange} {a : α} (hp : p.Ends h a)
    (hk : p.Path (h ++ k) q) : k = [] ∧ q = done a := by
  induction h generalizing p with
  | nil =>
    cases hp
    exact hk.of_done
  | cons e h ih =>
    cases hp with
    | along a rest => cases hk with | along _ rest' => exact ih rest rest'

/-- Two paths that begin alike end alike. -/
theorem Ends.eq_of_append_eq {p : Program α} {h h' k k' : List Exchange} {a b : α}
    (hp : p.Ends h a) (hq : p.Ends h' b) (heq : h ++ k = h' ++ k') : h = h' ∧ a = b := by
  obtain ⟨l, rfl, -⟩ | ⟨l, rfl, -⟩ := List.append_eq_append_iff.1 heq
  · obtain ⟨rfl, hdone⟩ := hp.eq_nil_of_append hq
    exact ⟨(List.append_nil h).symm, (done.inj hdone).symm⟩
  · obtain ⟨rfl, hdone⟩ := hq.eq_nil_of_append hp
    exact ⟨List.append_nil h', done.inj hdone⟩

/-! ## Requests and ends of the parts of programs -/

@[simp] theorem asks_done {a : α} {h : List Exchange} {r : Request} :
    (done a).Asks h r ↔ False := by
  constructor
  · rintro ⟨_, hp⟩
    cases hp
  · exact False.elim

@[simp] theorem asks_pure {a : α} {h : List Exchange} {r : Request} :
    (pure a : Program α).Asks h r ↔ False := asks_done

theorem asks_ask {r s : Request} {next : r.Answer → Program α} {h : List Exchange} :
    (ask r next).Asks h s ↔
      (h = [] ∧ s = r) ∨ ∃ a k, h = ⟨r, a⟩ :: k ∧ (next a).Asks k s := by
  constructor
  · rintro ⟨_, hp⟩
    cases hp with
    | here => exact .inl ⟨rfl, rfl⟩
    | along a rest => exact .inr ⟨a, _, rfl, _, rest⟩
  · rintro (⟨rfl, rfl⟩ | ⟨a, k, rfl, rest, hp⟩)
    · exact ⟨next, .here _⟩
    · exact ⟨rest, .along a hp⟩

@[simp] theorem ends_done {a b : α} {h : List Exchange} :
    (done a).Ends h b ↔ h = [] ∧ b = a := by
  constructor
  · intro hp
    obtain ⟨rfl, heq⟩ := hp.of_done
    cases heq
    exact ⟨rfl, rfl⟩
  · rintro ⟨rfl, rfl⟩
    exact .here _

@[simp] theorem ends_pure {a b : α} {h : List Exchange} :
    (pure a : Program α).Ends h b ↔ h = [] ∧ b = a := ends_done

theorem ends_ask {r : Request} {next : r.Answer → Program α} {h : List Exchange} {b : α} :
    (ask r next).Ends h b ↔ ∃ a k, h = ⟨r, a⟩ :: k ∧ (next a).Ends k b := by
  constructor
  · intro hp
    cases hp with
    | along a rest => exact ⟨a, _, rfl, rest⟩
  · rintro ⟨a, k, rfl, hp⟩
    exact .along a hp

-- The type of the answers is not indexed, since where the request is known it has been unfolded.
@[simp] theorem asks_request {r s : Request} {h : List Exchange} :
    @Asks (no_index r.Answer) (request r) h s ↔ h = [] ∧ s = r := by
  simp [request, asks_ask]

@[simp] theorem ends_request {r : Request} {h : List Exchange} {a : r.Answer} :
    @Ends (no_index r.Answer) (request r) h a ↔ h = [⟨r, a⟩] := by
  simp only [request, ends_ask, ends_done]
  constructor
  · rintro ⟨_, _, rfl, rfl, rfl⟩
    rfl
  · rintro rfl
    exact ⟨a, [], rfl, rfl, rfl⟩

theorem asks_bind {p : Program α} {f : α → Program β} {h : List Exchange} {r : Request} :
    (p >>= f).Asks h r ↔
      p.Asks h r ∨ ∃ k l a, h = k ++ l ∧ p.Ends k a ∧ (f a).Asks l r := by
  change (p.bind f).Asks h r ↔ _
  induction p generalizing h with
  | done a =>
    simp only [bind_done, asks_done, ends_done, false_or]
    constructor
    · exact fun hn => ⟨[], h, a, rfl, ⟨rfl, rfl⟩, hn⟩
    · rintro ⟨_, _, _, rfl, ⟨rfl, rfl⟩, hn⟩
      exact hn
  | ask s next ih =>
    simp only [bind_ask, asks_ask, ih, ends_ask]
    constructor
    · rintro (hn | ⟨a, _, rfl, hn | ⟨k, l, b, rfl, hk, hl⟩⟩)
      · exact .inl (.inl hn)
      · exact .inl (.inr ⟨a, _, rfl, hn⟩)
      · exact .inr ⟨_ :: k, l, b, rfl, ⟨a, k, rfl, hk⟩, hl⟩
    · rintro ((hn | ⟨a, k, rfl, hn⟩) | ⟨_, l, b, rfl, ⟨a, k, rfl, hk⟩, hl⟩)
      · exact .inl hn
      · exact .inr ⟨a, k, rfl, .inl hn⟩
      · exact .inr ⟨a, k ++ l, rfl, .inr ⟨k, l, b, rfl, hk, hl⟩⟩

theorem ends_bind {p : Program α} {f : α → Program β} {h : List Exchange} {b : β} :
    (p >>= f).Ends h b ↔ ∃ k l a, h = k ++ l ∧ p.Ends k a ∧ (f a).Ends l b := by
  change (p.bind f).Ends h b ↔ _
  induction p generalizing h with
  | done a =>
    simp only [bind_done, ends_done]
    constructor
    · exact fun hn => ⟨[], h, a, rfl, ⟨rfl, rfl⟩, hn⟩
    · rintro ⟨_, _, _, rfl, ⟨rfl, rfl⟩, hn⟩
      exact hn
  | ask s next ih =>
    simp only [bind_ask, ends_ask, ih]
    constructor
    · rintro ⟨a, _, rfl, k, l, c, rfl, hk, hl⟩
      exact ⟨_ :: k, l, c, rfl, ⟨a, k, rfl, hk⟩, hl⟩
    · rintro ⟨_, l, c, rfl, ⟨a, k, rfl, hk⟩, hl⟩
      exact ⟨a, k ++ l, rfl, k, l, c, rfl, hk, hl⟩

theorem asks_map {p : Program α} {f : α → β} {h : List Exchange} {r : Request} :
    (f <$> p).Asks h r ↔ p.Asks h r := by
  rw [map_eq_pure_bind, asks_bind]
  simp

theorem ends_map {p : Program α} {f : α → β} {h : List Exchange} {b : β} :
    (f <$> p).Ends h b ↔ ∃ a, p.Ends h a ∧ b = f a := by
  rw [map_eq_pure_bind, ends_bind]
  simp only [ends_pure]
  constructor
  · rintro ⟨_, _, a, rfl, ha, rfl, rfl⟩
    exact ⟨a, by simpa using ha, rfl⟩
  · rintro ⟨a, ha, rfl⟩
    exact ⟨h, [], a, (List.append_nil h).symm, ha, rfl, rfl⟩

end Program

end ContentSync
