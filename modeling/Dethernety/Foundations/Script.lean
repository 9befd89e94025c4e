import Mathlib.Logic.Basic

/-!
# Programs that call their environment

A script is a program that makes calls, goes on with the answer to each, and returns a value or throws. An
environment answers every call from the calls and answers before it, so nothing is assumed about what the
outside does in between. `Every P` says that all calls of a script satisfy `P`, whatever the answers are.
-/

variable {ε α : Type} {x : Except ε α}

lemma Except.exists_of_bind_ok {β : Type} {f : α → Except ε β} {b : β}
    (h : x >>= f = .ok b) : ∃ a, x = .ok a ∧ f a = .ok b := by
  cases x with
  | error e => cases h
  | ok a => exact ⟨a, rfl, h⟩

lemma Except.eq_ok_of_toOption {a : α} (h : x.toOption = some a) : x = .ok a := by
  cases x with
  | error e => cases h
  | ok b => exact congrArg _ (Option.some.inj h)

lemma Except.exists_error_of_toOption (h : x.toOption = none) : ∃ e, x = .error e := by
  cases x with
  | error e => exact ⟨e, rfl⟩
  | ok a => cases h

lemma Except.eq_ok_of_mapError {ε' : Type} {f : ε → ε'} {a : α} (h : x.mapError f = .ok a) :
    x = .ok a := by
  cases x with
  | error e => cases h
  | ok b => exact congrArg _ (Except.ok.inj h)

/-- A program with calls, their answers, an exception type and a result type. -/
inductive Script {Call : Type} (Answer : Call → Type) (ε α : Type)
  | ret (r : Except ε α)
  | call (c : Call) (k : Answer c → Script Answer ε α)

namespace Script

variable {Call : Type} {Answer : Call → Type} {ε α β ι : Type}

/-- Go on with the value that a script returns. -/
def bind : Script Answer ε α → (α → Script Answer ε β) → Script Answer ε β
  | ret (.ok a), f => f a
  | ret (.error e), _ => ret (.error e)
  | call c k, f => call c fun answer => (k answer).bind f

/-- Go on with the exception that a script throws. -/
def handle : Script Answer ε α → (ε → Script Answer ε α) → Script Answer ε α
  | ret (.ok a), _ => ret (.ok a)
  | ret (.error e), f => f e
  | call c k, f => call c fun answer => (k answer).handle f

instance : Monad (Script Answer ε) where
  pure a := ret (.ok a)
  bind := bind

instance : MonadExcept ε (Script Answer ε) where
  throw e := ret (.error e)
  tryCatch := handle

/-- A pure computation that may throw. -/
def lift (r : Except ε α) : Script Answer ε α :=
  ret r

/-- One call, and its answer as the value. -/
def ask (c : Call) : Script Answer ε (Answer c) :=
  call c fun answer => ret (.ok answer)

/-- Throw unless a condition holds. -/
def require (b : Bool) (e : ε) : Script Answer ε PUnit :=
  if b then ret (.ok ⟨⟩) else ret (.error e)

/-- The value that is there, or an exception. -/
def orThrow (x : Option α) (e : ε) : Script Answer ε α :=
  match x with
  | some a => ret (.ok a)
  | none => ret (.error e)

def throwSome (x : Option ε) : Script Answer ε PUnit :=
  match x with
  | some e => ret (.error e)
  | none => ret (.ok ⟨⟩)

/-- A call with its answer. -/
abbrev Event {Call : Type} (Answer : Call → Type) := Σ c, Answer c

/-- What answers the calls. -/
abbrev Environment {Call : Type} (Answer : Call → Type) := List (Event Answer) → ∀ c, Answer c

/-- The run of a script after some events: the events it adds, and how it ends. -/
def run (env : Environment Answer) : Script Answer ε α → List (Event Answer) → List (Event Answer) × Except ε α
  | ret r, _ => ([], r)
  | call c k, past =>
    let answer := env past c
    let rest := (k answer).run env (past ++ [⟨c, answer⟩])
    (⟨c, answer⟩ :: rest.1, rest.2)

/-- The calls a script makes in an environment, in their order. -/
def calls (s : Script Answer ε α) (env : Environment Answer) : List Call :=
  (s.run env []).1.map Sigma.fst

/-- Every call of the script satisfies `P`, whatever the answers are. -/
def Every (P : Call → Prop) : Script Answer ε α → Prop
  | ret _ => True
  | call c k => P c ∧ ∀ answer, (k answer).Every P

variable {P Q : Call → Prop} {s : Script Answer ε α}

lemma Every.mem_run (h : s.Every P) (env : Environment Answer) (past : List (Event Answer)) :
    ∀ e ∈ (s.run env past).1, P e.1 := by
  induction s generalizing past with
  | ret r => exact fun e he => absurd he List.not_mem_nil
  | call c k ih =>
    obtain ⟨hc, hk⟩ := h
    intro e he
    rcases List.mem_cons.1 he with rfl | he
    · exact hc
    · exact ih _ (hk _) _ e he

lemma Every.mem_calls (h : s.Every P) (env : Environment Answer) : ∀ c ∈ s.calls env, P c := by
  intro c hc
  obtain ⟨e, he, rfl⟩ := List.mem_map.1 hc
  exact h.mem_run env [] e he

lemma Every.mono (h : s.Every P) (himp : ∀ c, P c → Q c) : s.Every Q := by
  induction s with
  | ret r => trivial
  | call c k ih => exact ⟨himp c h.1, fun answer => ih answer (h.2 answer)⟩

lemma every_of_forall (h : ∀ c, P c) : s.Every P := by
  induction s with
  | ret => trivial
  | call c k ih => exact ⟨h c, ih⟩

lemma every_pure (a : α) : Every P (pure a : Script Answer ε α) := trivial

lemma every_throw (e : ε) : Every P (throw e : Script Answer ε α) := trivial

lemma every_ask {c : Call} (h : P c) : Every P (ask c : Script Answer ε (Answer c)) :=
  ⟨h, fun _ => trivial⟩

lemma Every.bind {f : α → Script Answer ε β} (hs : s.Every P) (hf : ∀ a, (f a).Every P) : (s >>= f).Every P := by
  induction s with
  | ret r =>
    cases r with
    | ok a => exact hf a
    | error e => trivial
  | call c k ih => exact ⟨hs.1, fun answer => ih answer (hs.2 answer)⟩

lemma Every.tryCatch {f : ε → Script Answer ε α} (hs : s.Every P) (hf : ∀ e, (f e).Every P) :
    (tryCatch s f).Every P := by
  induction s with
  | ret r =>
    cases r with
    | ok a => trivial
    | error e => exact hf e
  | call c k ih => exact ⟨hs.1, fun answer => ih answer (hs.2 answer)⟩

/-- A pure check before the rest: the rest runs only when the check passes. -/
theorem every_lift_bind {r : Except ε α} {f : α → Script Answer ε β} (h : ∀ a, r = .ok a → (f a).Every P) :
    (lift r >>= f).Every P := by
  cases r with
  | ok a => exact h a rfl
  | error e => trivial

lemma every_ite {p : Prop} [Decidable p] {t : Script Answer ε α} (hs : s.Every P) (ht : t.Every P) :
    (if p then s else t).Every P := by
  by_cases h : p
  · rwa [if_pos h]
  · rwa [if_neg h]

lemma every_require (b : Bool) (e : ε) : (require b e : Script Answer ε PUnit).Every P := by
  cases b <;> trivial

lemma Every.require {b : Bool} {e : ε} {f : PUnit → Script Answer ε β} (h : (f ⟨⟩).Every P) :
    (require b e >>= f).Every P :=
  (every_require b e).bind fun _ => h

lemma Every.ask {c : Call} {f : Answer c → Script Answer ε β} (h : P c) (hf : ∀ a, (f a).Every P) :
    (ask c >>= f).Every P :=
  ⟨h, hf⟩

lemma every_orThrow (x : Option α) (e : ε) : (orThrow x e : Script Answer ε α).Every P := by
  cases x <;> trivial

lemma every_throwSome (x : Option ε) : (throwSome x : Script Answer ε PUnit).Every P := by
  cases x <;> trivial

lemma lift_ok_bind (a : α) (f : α → Script Answer ε β) : (lift (.ok a) >>= f : Script Answer ε β) = f a := rfl

/-- A script that ends with the value or the exception of another one as its value. -/
def attempt : Script Answer ε α → Script Answer ε (Except ε α)
  | ret r => ret (.ok r)
  | call c k => call c fun answer => (k answer).attempt

/-- Run a script, then another one whatever came of the first: a deferred call. -/
def deferring (body : Script Answer ε α) (deferred : Script Answer ε PUnit) : Script Answer ε α := do
  let r ← body.attempt
  deferred
  lift r

/-- Whether a script has come to its end. -/
def isDone : Script Answer ε α → Bool
  | ret _ => true
  | call _ _ => false

lemma Every.attempt (h : s.Every P) : s.attempt.Every P := by
  induction s with
  | ret r => trivial
  | call c k ih => exact ⟨h.1, fun answer => ih answer (h.2 answer)⟩

lemma Every.deferring {deferred : Script Answer ε PUnit} (h : s.Every P) (hdeferred : deferred.Every P) :
    (s.deferring deferred).Every P :=
  h.attempt.bind fun _ => hdeferred.bind fun _ => trivial

lemma every_forM {l : List ι} {f : ι → Script Answer ε PUnit} (h : ∀ i ∈ l, (f i).Every P) : (l.forM f).Every P := by
  induction l with
  | nil => trivial
  | cons i l ih =>
    exact (h i (.head _)).bind fun _ => ih fun j hj => h j (List.mem_cons_of_mem i hj)

/-- Whether a script can make some calls and end in a result, when its calls are answered as `R` allows. -/
def Yields (R : ∀ c, Answer c → Prop) : Script Answer ε α → List (Event Answer) → Except ε α → Prop
  | ret r, events, r' => events = [] ∧ r = r'
  | call c k, events, r' => ∃ answer rest, R c answer ∧ events = ⟨c, answer⟩ :: rest ∧ (k answer).Yields R rest r'

namespace Yields

variable {R : ∀ c, Answer c → Prop} {f : α → Script Answer ε β} {events : List (Event Answer)} {b : β} {e : ε}

lemma of_ask {c : Call} {a : Answer c} (h : (ask c : Script Answer ε _).Yields R events (.ok a)) : R c a := by
  obtain ⟨answer, rest, hR, -, -, heq⟩ := h
  cases heq
  exact hR

lemma of_ask_bind {c : Call} {f : Answer c → Script Answer ε β} (h : (ask c >>= f).Yields R events (.ok b)) :
    ∃ answer rest, R c answer ∧ events = ⟨c, answer⟩ :: rest ∧ (f answer).Yields R rest (.ok b) := h

lemma of_bind (h : (s >>= f).Yields R events (.ok b)) :
    ∃ a first rest, events = first ++ rest ∧ s.Yields R first (.ok a) ∧ (f a).Yields R rest (.ok b) := by
  induction s generalizing events with
  | ret r =>
    cases r with
    | ok a => exact ⟨a, [], events, rfl, ⟨rfl, rfl⟩, h⟩
    | error e => cases h.2
  | call c k ih =>
    obtain ⟨answer, rest, hR, rfl, h⟩ := h
    obtain ⟨a, first, rest, rfl, hs, hf⟩ := ih answer h
    exact ⟨a, _, rest, rfl, ⟨answer, first, hR, rfl, hs⟩, hf⟩

lemma of_require {p : Bool} {f : PUnit → Script Answer ε β} (h : (require p e >>= f).Yields R events (.ok b)) :
    p = true ∧ (f ⟨⟩).Yields R events (.ok b) := by
  cases p with
  | true => exact ⟨rfl, h⟩
  | false => cases h.2

lemma of_orThrow {x : Option α} (h : (orThrow x e >>= f).Yields R events (.ok b)) :
    ∃ a, x = some a ∧ (f a).Yields R events (.ok b) := by
  cases x with
  | some a => exact ⟨a, rfl, h⟩
  | none => cases h.2

lemma of_lift {r : Except ε α} (h : (lift r >>= f).Yields R events (.ok b)) :
    ∃ a, r = .ok a ∧ (f a).Yields R events (.ok b) := by
  cases r with
  | ok a => exact ⟨a, rfl, h⟩
  | error e => cases h.2

lemma of_throwSome {x : Option ε} {f : PUnit → Script Answer ε β}
    (h : (throwSome x >>= f).Yields R events (.ok b)) : (f ⟨⟩).Yields R events (.ok b) := by
  cases x with
  | some e => cases h.2
  | none => exact h

end Yields

end Script
