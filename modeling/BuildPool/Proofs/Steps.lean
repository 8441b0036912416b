/-!
# Operations step by step

The operations of a pool are given by what they come to: an answer with the state after it, or a
refusal. Here an operation works on a state in place, one write after the other, and what it wrote
before a refusal stays written. It comes to the same only if it checks everything before it writes.
-/

namespace BuildPool

/-- An operation on a state in place. -/
abbrev Steps (ε σ α : Type) : Type := ExceptT ε (StateM σ) α

namespace Steps

variable {ε ε' σ τ α β : Type}

/-- The result of the steps, and the state as they leave it. -/
def exec (x : Steps ε σ α) (s : σ) : Except ε α × σ := (ExceptT.run x).run s

/-- Goes on with what the state gives, or is refused. -/
def look (f : σ → Except ε α) : Steps ε σ α := fun s => (f s, s)

def write (f : σ → σ) : Steps ε σ Unit := modify f

/-- Steps on a part of the state. -/
def on (part : σ → τ) (update : τ → σ → σ) (x : Steps ε τ α) : Steps ε σ α :=
  fun s => ((x.exec (part s)).1, update (x.exec (part s)).2 s)

/-- The same steps, where another reason is given for a refusal. -/
def because (reason : ε → ε') (x : Steps ε σ α) : Steps ε' σ α :=
  fun s => ((x.exec s).1.mapError reason, (x.exec s).2)

@[simp] theorem exec_get (s : σ) : (get : Steps ε σ σ).exec s = (.ok s, s) := rfl

@[simp] theorem exec_look (f : σ → Except ε α) (s : σ) : (look f).exec s = (f s, s) := rfl

@[simp] theorem exec_write (f : σ → σ) (s : σ) :
    (write f : Steps ε σ Unit).exec s = (.ok (), f s) := rfl

@[simp] theorem exec_on (part : σ → τ) (update : τ → σ → σ) (x : Steps ε τ α) (s : σ) :
    (x.on part update).exec s = ((x.exec (part s)).1, update (x.exec (part s)).2 s) := rfl

@[simp] theorem exec_because (reason : ε → ε') (x : Steps ε σ α) (s : σ) :
    (x.because reason).exec s = ((x.exec s).1.mapError reason, (x.exec s).2) := rfl

@[simp] theorem exec_bind (x : Steps ε σ α) (f : α → Steps ε σ β) (s : σ) :
    (x >>= f).exec s =
      match x.exec s with
      | (.ok a, s') => (f a).exec s'
      | (.error e, s') => (.error e, s') := by
  have hbind : (x >>= f).exec s = (ExceptT.bindCont f (x.exec s).1).run (x.exec s).2 := rfl
  rw [hbind]
  rcases x.exec s with ⟨_ | _, _⟩
  · rfl
  · rfl

theorem exec_bind_ok {x : Steps ε σ α} {f : α → Steps ε σ β} {a : α} {s s' : σ}
    (h : x.exec s = (.ok a, s')) : (x >>= f).exec s = (f a).exec s' := by
  rw [exec_bind, h]

theorem exec_on_ok {part : σ → τ} {update : τ → σ → σ} {x : Steps ε τ α} {a : α} {s : σ} {t : τ}
    (h : x.exec (part s) = (.ok a, t)) :
    (x.on part update).exec s = (.ok a, update t s) := by
  rw [exec_on, h]

/-! ## At once -/

/-- What an operation comes to. If it is refused, the state is as it was. -/
def settle (s : σ) : Except ε (α × σ) → Except ε α × σ
  | .ok (a, s') => (.ok a, s')
  | .error e => (.error e, s)

/-- Step by step the operation comes to the same as at once. -/
def Does (x : Steps ε σ α) (atOnce : σ → Except ε (α × σ)) : Prop :=
  ∀ s, x.exec s = settle s (atOnce s)

theorem Does.exec_eq_ok {x : Steps ε σ α} {atOnce : σ → Except ε (α × σ)} (h : x.Does atOnce)
    {a : α} {s s' : σ} : x.exec s = (.ok a, s') ↔ atOnce s = .ok (a, s') := by
  rw [h s]
  cases atOnce s with
  | error e => simp [settle]
  | ok c => simp [settle, Prod.ext_iff]

theorem Does.exec_eq_error {x : Steps ε σ α} {atOnce : σ → Except ε (α × σ)} (h : x.Does atOnce)
    {e : ε} {s s' : σ} : x.exec s = (.error e, s') ↔ atOnce s = .error e ∧ s' = s := by
  rw [h s]
  cases atOnce s with
  | error e' => simp [settle, eq_comm]
  | ok c => simp [settle]

theorem map_eq_error {r : Except ε α} {f : α → β} {e : ε} :
    r.map f = .error e ↔ r = .error e := by
  cases r with
  | error e' => simp [Except.map]
  | ok a => simp [Except.map]

theorem Does.get {x : σ → Steps ε σ β} {atOnce : σ → Except ε (β × σ)}
    (h : ∀ s, (x s).exec s = settle s (atOnce s)) : (MonadState.get >>= x).Does atOnce := by
  intro s
  exact (exec_bind _ x s).trans (h s)

/-- An operation that looks first does not write before that. -/
theorem Does.look {f : σ → Except ε α} {x : α → Steps ε σ β} {g : σ → α → Except ε (β × σ)}
    (h : ∀ a s, f s = .ok a → (x a).exec s = settle s (g s a)) :
    (Steps.look f >>= x).Does fun s => f s >>= g s := by
  intro s
  change _ = settle s (f s >>= g s)
  rw [exec_bind, exec_look]
  cases hf : f s with
  | error e => rfl
  | ok a => exact h a s hf

theorem Does.look_map {γ : Type} {f : σ → Except ε α} {x : α → Steps ε σ β}
    {g : σ → α → Except ε γ} {k : σ → γ → β × σ}
    (h : ∀ a s, f s = .ok a → (x a).exec s = settle s ((g s a).map (k s))) :
    (Steps.look f >>= x).Does fun s => (f s >>= g s).map (k s) := by
  intro s
  change _ = settle s ((f s >>= g s).map (k s))
  rw [exec_bind, exec_look]
  cases hf : f s with
  | error e => rfl
  | ok a => exact h a s hf

theorem settle_self {x : Steps ε σ α} {s : σ} {r : Except ε (α × σ)} (h : x.exec s = settle s r) :
    x.exec s = settle s (r.map fun c => c) :=
  h.trans (congrArg (settle s) (congrFun Except.map_id r).symm)

/-- What comes after other steps. If those are refused, nothing was written at all. -/
theorem settle_bind {γ : Type} {x : Steps ε σ α} {y : α → Steps ε σ β} {s : σ} {r : Except ε γ}
    {k : γ → α × σ} {g : γ → Except ε (β × σ)} (hx : x.exec s = settle s (r.map k))
    (hy : ∀ c, r = .ok c → (y (k c).1).exec (k c).2 = settle s (g c)) :
    (x >>= y).exec s = settle s (r >>= g) := by
  rw [exec_bind, hx]
  cases hr : r with
  | error e => rfl
  | ok c => exact hy c hr

theorem settle_on {γ : Type} {part : σ → τ} {update : τ → σ → σ} {x : Steps ε τ α} {s : σ}
    {r : Except ε γ} {k : γ → α × τ} (hkeep : update (part s) s = s)
    (hx : x.exec (part s) = settle (part s) (r.map k)) :
    (x.on part update).exec s = settle s (r.map fun c => ((k c).1, update (k c).2 s)) := by
  rw [exec_on, hx]
  cases r with
  | error e => exact congrArg (Except.error e, ·) hkeep
  | ok c => rfl

theorem settle_because {x : Steps ε σ α} {s : σ} {r : Except ε (α × σ)} (reason : ε → ε')
    (hx : x.exec s = settle s r) :
    (x.because reason).exec s = settle s (r.mapError reason) := by
  rw [exec_because, hx]
  cases r with
  | error e => rfl
  | ok c => rfl

end Steps

end BuildPool
