import Mathlib.Order.Basic

/-!
# TiBackup.Lib.Machine

**Deterministic machines with outputs**, and the rules their runs obey.

A machine reads one event at a time; a run is a list of events. Everything a
development proves about runs is one of four shapes, and each has its rule here:

* an invariant kept by every step that meets a side condition (`invariant_run`), and
  kept by no other one (`along_next_iff`);
* a property of every step of a run, read off such an invariant
  (`along_of_invariant`);
* two machines driven by the same events whose states stay related (`related_run`), and
  whose outputs agree for that reason (`simulation`);
* the answers to *some* of the events do not depend on the others
  (`answers_filter_clocked`).

Clocks are not part of the state. An event has a time at which it starts and a
time at which it is over; `InOrder` says the readings along a run never go back,
and a rule whose name ends in `clocked` is indexed by the last reading.
-/

namespace TiBackup.Lib

/-- A machine: from a state and an event, the next state and an output. -/
structure Machine (σ ε ο : Type*) where
  step : σ → ε → σ × ο

namespace Machine

variable {σ τ ε ο : Type*}

/-- The state after one event. -/
def next (M : Machine σ ε ο) (s : σ) (e : ε) : σ := (M.step s e).1

/-- The output of one event. -/
def out (M : Machine σ ε ο) (s : σ) (e : ε) : ο := (M.step s e).2

/-- The state a run ends in. -/
def run (M : Machine σ ε ο) : σ → List ε → σ
  | s, [] => s
  | s, e :: es => M.run (M.next s e) es

/-- The outputs of a run, in order. -/
def outputs (M : Machine σ ε ο) : σ → List ε → List ο
  | _, [] => []
  | s, e :: es => M.out s e :: M.outputs (M.next s e) es

/-- `P` holds of the state before and the event of every step of the run. -/
def Along (M : Machine σ ε ο) (P : σ → ε → Prop) : σ → List ε → Prop
  | _, [] => True
  | s, e :: es => P s e ∧ M.Along P (M.next s e) es

variable {M : Machine σ ε ο}

@[simp] theorem run_nil (s : σ) : M.run s [] = s := rfl

@[simp] theorem run_cons (s : σ) (e : ε) (es : List ε) :
    M.run s (e :: es) = M.run (M.next s e) es := rfl

@[simp] theorem outputs_cons (s : σ) (e : ε) (es : List ε) :
    M.outputs s (e :: es) = M.out s e :: M.outputs (M.next s e) es := rfl

@[simp] theorem along_nil (P : σ → ε → Prop) (s : σ) : M.Along P s [] := trivial

@[simp] theorem along_cons (P : σ → ε → Prop) (s : σ) (e : ε) (es : List ε) :
    M.Along P s (e :: es) ↔ P s e ∧ M.Along P (M.next s e) es := Iff.rfl

theorem run_append (s : σ) (es fs : List ε) :
    M.run s (es ++ fs) = M.run (M.run s es) fs := by
  induction es generalizing s with
  | nil => rfl
  | cons e es ih => exact ih (M.next s e)

/-! ### Invariants -/

/-- Equivalence of two step properties under an invariant lifts to runs. -/
theorem along_congr_of_invariant {I : σ → Prop} {P Q : σ → ε → Prop}
    (hstep : ∀ s e, I s → I (M.next s e)) (hPQ : ∀ s e, I s → (P s e ↔ Q s e))
    {s : σ} (hs : I s) (es : List ε) : M.Along P s es ↔ M.Along Q s es := by
  induction es generalizing s with
  | nil => simp
  | cons e es ih => rw [along_cons, along_cons, hPQ s e hs, ih (hstep s e hs)]

/-- An invariant kept by every step that meets `P` holds where such a run ends. -/
theorem invariant_run {I : σ → Prop} {P : σ → ε → Prop}
    (hstep : ∀ s e, I s → P s e → I (M.next s e)) {s : σ} {es : List ε}
    (hs : I s) (h : M.Along P s es) : I (M.run s es) := by
  induction es generalizing s with
  | nil => exact hs
  | cons e es ih => exact ih (hstep s e hs h.1) h.2

/-- A step property that follows from an invariant holds along the run. -/
theorem along_of_invariant {I : σ → Prop} {P Q : σ → ε → Prop}
    (hstep : ∀ s e, I s → P s e → I (M.next s e)) (hQ : ∀ s e, I s → P s e → Q s e)
    {s : σ} {es : List ε} (hs : I s) (h : M.Along P s es) : M.Along Q s es := by
  induction es generalizing s with
  | nil => trivial
  | cons e es ih => exact ⟨hQ s e hs h.1, ih (hstep s e hs h.1) h.2⟩

/-- If a step from a state with the invariant keeps it exactly when it meets `P`, then the
invariant holds in every state of a run exactly when every step meets `P`. -/
theorem along_next_iff {I : σ → Prop} {P : σ → ε → Prop}
    (hstep : ∀ s e, I s → (I (M.next s e) ↔ P s e)) {s : σ} (hs : I s) (es : List ε) :
    M.Along (fun s e => I (M.next s e)) s es ↔ M.Along P s es := by
  induction es generalizing s with
  | nil => simp
  | cons e es ih =>
    rw [along_cons, along_cons, hstep s e hs]
    exact and_congr_right fun h => ih ((hstep s e hs).mpr h)

/-- A property of all the events of a run is one of its steps. -/
theorem along_of_forall_mem {P : ε → Prop} {es : List ε} (h : ∀ e ∈ es, P e) (s : σ) :
    M.Along (fun _ e => P e) s es := by
  induction es generalizing s with
  | nil => trivial
  | cons e es ih => exact ⟨h e (by simp), ih (fun e' he' => h e' (by simp [he'])) _⟩

theorem along_and {P Q : σ → ε → Prop} {s : σ} {es : List ε} (hP : M.Along P s es)
    (hQ : M.Along Q s es) : M.Along (fun s e => P s e ∧ Q s e) s es := by
  induction es generalizing s with
  | nil => trivial
  | cons e es ih => exact ⟨⟨hP.1, hQ.1⟩, ih hP.2 hQ.2⟩

theorem along_append {P : σ → ε → Prop} {s : σ} {es fs : List ε} :
    M.Along P s (es ++ fs) ↔ M.Along P s es ∧ M.Along P (M.run s es) fs := by
  induction es generalizing s with
  | nil => simp
  | cons e es ih => rw [List.cons_append, along_cons, along_cons, ih, run_cons, and_assoc]

/-- A run can be checked step by step. -/
instance decidableAlong (M : Machine σ ε ο) (P : σ → ε → Prop) [∀ s e, Decidable (P s e)] :
    (s : σ) → (es : List ε) → Decidable (M.Along P s es)
  | _, [] => .isTrue trivial
  | s, e :: es =>
    have := decidableAlong M P (M.next s e) es
    inferInstanceAs (Decidable (P s e ∧ M.Along P (M.next s e) es))

/-- `P` held at some point of the run. -/
def Once (M : Machine σ ε ο) (P : σ → Prop) (s : σ) (es : List ε) : Prop :=
  ∃ pre post, es = pre ++ post ∧ P (M.run s pre)

theorem once_of_run {P : σ → Prop} {s : σ} {es : List ε} (h : P (M.run s es)) : M.Once P s es :=
  ⟨es, [], (List.append_nil es).symm, h⟩

theorem Once.append {P : σ → Prop} {s : σ} {es : List ε} (h : M.Once P s es) (fs : List ε) :
    M.Once P s (es ++ fs) := by
  obtain ⟨pre, post, rfl, hP⟩ := h
  exact ⟨pre, post ++ fs, List.append_assoc pre post fs, hP⟩

/-! ### Two runs over the same events -/

/-- A relation kept by every pair of steps, with equal outputs, is kept by the
runs, and the outputs of the runs are equal. -/
theorem simulation {N : Machine τ ε ο} {R : σ → τ → Prop} {es : List ε}
    (hstep : ∀ e ∈ es, ∀ s t, R s t → R (M.next s e) (N.next t e) ∧ M.out s e = N.out t e)
    {s : σ} {t : τ} (h : R s t) : R (M.run s es) (N.run t es) ∧ M.outputs s es = N.outputs t es := by
  induction es generalizing s t with
  | nil => exact ⟨h, rfl⟩
  | cons e es ih =>
    obtain ⟨hR, hout⟩ := hstep e List.mem_cons_self s t h
    obtain ⟨hR', houts⟩ := ih (fun e' he' => hstep e' (List.mem_cons_of_mem e he')) hR
    exact ⟨hR', by rw [outputs_cons, outputs_cons, hout, houts]⟩

/-- A relation kept by every pair of steps that meets a side condition is kept by the runs
that meet it. -/
theorem related_run {ο' : Type*} {N : Machine τ ε ο'} {R : σ → τ → Prop} {P : σ → ε → Prop}
    (hstep : ∀ s t e, R s t → P s e → R (M.next s e) (N.next t e)) {s : σ} {t : τ} {es : List ε}
    (h : R s t) (hP : M.Along P s es) : R (M.run s es) (N.run t es) := by
  induction es generalizing s t with
  | nil => exact h
  | cons e es ih => exact ih (hstep s t e h hP.1) hP.2

/-- A machine that does, seen through `v`, what another one does on some of the events,
does it over whole runs. -/
theorem view_run {ε' ο' : Type*} {N : Machine τ ε' ο'} {v : σ → τ} {proj : ε → Option ε'}
    (hstep : ∀ s e, v (M.next s e) = (proj e).elim (v s) (N.next (v s))) (s : σ)
    (es : List ε) : v (M.run s es) = N.run (v s) (es.filterMap proj) := by
  induction es generalizing s with
  | nil => rfl
  | cons e es ih =>
    rw [run_cons, ih, hstep]
    cases hproj : proj e with
    | none => rw [List.filterMap_cons_none hproj, Option.elim_none]
    | some e' => rw [List.filterMap_cons_some hproj, Option.elim_some, run_cons]

/-- The machine that sees of each event only what `proj` shows of it. -/
def seen {ε' ο' : Type*} (N : Machine τ ε' ο') (proj : ε → Option ε') :
    Machine τ ε (Option ο') where
  step t e := (proj e).elim (t, none) fun e' => (N.next t e', some (N.out t e'))

theorem next_seen {ε' ο' : Type*} (N : Machine τ ε' ο') (proj : ε → Option ε') (t : τ) (e : ε) :
    (N.seen proj).next t e = (proj e).elim t (N.next t) := by
  cases hproj : proj e <;> simp [seen, next, hproj]

theorem run_seen {ε' ο' : Type*} (N : Machine τ ε' ο') (proj : ε → Option ε') (t : τ)
    (es : List ε) : (N.seen proj).run t es = N.run t (es.filterMap proj) :=
  view_run (v := id) (next_seen N proj) t es

/-! ### The answers to some of the events -/

/-- The outputs of the events that satisfy `p`, in order. -/
def answers (M : Machine σ ε ο) (p : ε → Bool) : σ → List ε → List ο
  | _, [] => []
  | s, e :: es =>
    if p e then M.out s e :: M.answers p (M.next s e) es else M.answers p (M.next s e) es

theorem answers_cons_pos {p : ε → Bool} {e : ε} (h : p e = true) (s : σ) (es : List ε) :
    M.answers p s (e :: es) = M.out s e :: M.answers p (M.next s e) es := by
  simp [answers, h]

theorem answers_cons_neg {p : ε → Bool} {e : ε} (h : p e = false) (s : σ) (es : List ε) :
    M.answers p s (e :: es) = M.answers p (M.next s e) es := by
  simp [answers, h]

/-! ### Clock readings -/

section Clock

variable {θ : Type*} [LE θ]

/-- The clock readings of the events never go back, from the reading `t` on: each
event starts no earlier than the one before was over. -/
def InOrder (start stop : ε → θ) : θ → List ε → Prop
  | _, [] => True
  | t, e :: es => t ≤ start e ∧ start e ≤ stop e ∧ InOrder start stop (stop e) es

/-- The last clock reading of a run that began at `t`. -/
def lastReading (stop : ε → θ) : θ → List ε → θ
  | t, [] => t
  | _, e :: es => lastReading stop (stop e) es

variable {start stop : ε → θ}

@[simp] theorem inOrder_nil (t : θ) : InOrder start stop t [] := trivial

@[simp] theorem inOrder_cons (t : θ) (e : ε) (es : List ε) :
    InOrder start stop t (e :: es) ↔
      t ≤ start e ∧ start e ≤ stop e ∧ InOrder start stop (stop e) es := Iff.rfl

omit [LE θ] in
theorem lastReading_append (t : θ) (es fs : List ε) :
    lastReading stop t (es ++ fs) = lastReading stop (lastReading stop t es) fs := by
  induction es generalizing t with
  | nil => rfl
  | cons e es ih => exact ih (stop e)

theorem inOrder_append (t : θ) (es fs : List ε) :
    InOrder start stop t (es ++ fs) ↔
      InOrder start stop t es ∧ InOrder start stop (lastReading stop t es) fs := by
  induction es generalizing t with
  | nil => simp [lastReading]
  | cons e es ih => simp [ih, lastReading, and_assoc]

/-- An invariant that speaks about the last clock reading. -/
theorem invariant_run_clocked {I : θ → σ → Prop} {es : List ε}
    (hstep : ∀ e ∈ es, ∀ t s, I t s → t ≤ start e → start e ≤ stop e → I (stop e) (M.next s e))
    {t : θ} {s : σ} (hs : I t s) (h : InOrder start stop t es) :
    I (lastReading stop t es) (M.run s es) := by
  induction es generalizing t s with
  | nil => exact hs
  | cons e es ih =>
    refine ih (fun e' he' => hstep e' (List.mem_cons_of_mem e he')) ?_ h.2.2
    exact hstep e List.mem_cons_self t s hs h.1 h.2.1

/-- `simulation` for a relation that speaks about the last clock reading. -/
theorem simulation_clocked {N : Machine τ ε ο} {R : θ → σ → τ → Prop}
    (hstep : ∀ c s t e, R c s t → c ≤ start e → start e ≤ stop e →
      R (stop e) (M.next s e) (N.next t e) ∧ M.out s e = N.out t e)
    {c : θ} {s : σ} {t : τ} {es : List ε} (h : R c s t) (hes : InOrder start stop c es) :
    R (lastReading stop c es) (M.run s es) (N.run t es) ∧ M.outputs s es = N.outputs t es := by
  induction es generalizing c s t with
  | nil => exact ⟨h, rfl⟩
  | cons e es ih =>
    obtain ⟨hR, hout⟩ := hstep c s t e h hes.1 hes.2.1
    obtain ⟨hR', houts⟩ := ih hR hes.2.2
    exact ⟨hR', by rw [outputs_cons, outputs_cons, hout, houts]⟩

/-- If the other events leave a relation alone and the selected ones keep it with
equal outputs, the selected events are answered as if the others had not happened. The
relation may speak about the last clock reading. -/
theorem answers_filter_clocked {R : θ → σ → σ → Prop} {p : ε → Bool}
    (hskip : ∀ c s t e, p e = false → R c s t → c ≤ start e → start e ≤ stop e →
      R (stop e) (M.next s e) t)
    (hkeep : ∀ c s t e, p e = true → R c s t → c ≤ start e → start e ≤ stop e →
      R (stop e) (M.next s e) (M.next t e) ∧ M.out s e = M.out t e)
    {c : θ} {s t : σ} {es : List ε} (h : R c s t) (hes : InOrder start stop c es) :
    M.answers p s es = M.outputs t (es.filter p) := by
  induction es generalizing c s t with
  | nil => rfl
  | cons e es ih =>
    cases hp : p e with
    | true =>
      obtain ⟨hR, hout⟩ := hkeep c s t e hp h hes.1 hes.2.1
      rw [answers_cons_pos hp, List.filter_cons_of_pos hp, outputs_cons, hout, ih hR hes.2.2]
    | false =>
      rw [answers_cons_neg hp, List.filter_cons_of_neg (by simp [hp]),
        ih (hskip c s t e hp h hes.1 hes.2.1) hes.2.2]

end Clock

section Preorder

variable {θ : Type*} [Preorder θ] {start stop : ε → θ}

theorem le_lastReading {t : θ} {es : List ε} (h : InOrder start stop t es) :
    t ≤ lastReading stop t es := by
  induction es generalizing t with
  | nil => exact le_refl t
  | cons e es ih => exact (h.1.trans h.2.1).trans (ih h.2.2)

end Preorder

end Machine

end TiBackup.Lib
