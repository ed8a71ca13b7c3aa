import Mathlib

/-!
The restart budget of a seat: a list of the restarts granted within the window, pruned by each of
the three methods that read it. Next to it, the decision over all restarts ever granted, which no
pruning touches.
-/

namespace PumpGrok

def restartCapacity : ℕ := 5

structure RestartPolicy (τ : Type) where
  capacity : ℕ := restartCapacity
  window : τ
  crashes : List τ := []
  deriving DecidableEq

namespace RestartPolicy

/-- A call of one of the three methods. -/
inductive Call (τ : Type) where
  | crash (now : τ)
  | attempt (now : τ)
  | backoff (jitter : ℚ) (now : τ)

namespace Call

variable {τ : Type}

def time : Call τ → τ
  | .crash now | .attempt now | .backoff _ now => now

def isCrash : Call τ → Bool
  | .crash _ => true
  | _ => false

end Call

variable {τ : Type} [AddCommGroup τ] [LinearOrder τ]

def prune (p : RestartPolicy τ) (now : τ) : RestartPolicy τ :=
  { p with crashes := p.crashes.filter (now - p.window < ·) }

/-- Record a crash; true when the seat may restart. A refused crash is not recorded. -/
def recordCrash (p : RestartPolicy τ) (now : τ) : Bool × RestartPolicy τ :=
  let q := p.prune now
  if q.capacity ≤ q.crashes.length then (false, q)
  else (true, { q with crashes := q.crashes ++ [now] })

def attempt (p : RestartPolicy τ) (now : τ) : ℕ × RestartPolicy τ :=
  ((p.prune now).crashes.length, p.prune now)

/-- The wait before the next attempt: doubled with each restart in the window up to the cap, plus
the drawn jitter. -/
def backoffS (p : RestartPolicy τ) (jitter : ℚ) (now : τ) : ℚ × RestartPolicy τ :=
  let (count, q) := p.attempt now
  (min 16 (2 ^ (count - 1)) + jitter, q)

/-- The crashes of a run with their times and answers. -/
def answers (p : RestartPolicy τ) : List (Call τ) → List (τ × Bool)
  | [] => []
  | .crash now :: cs => (now, (p.recordCrash now).1) :: answers (p.recordCrash now).2 cs
  | .attempt now :: cs => answers (p.attempt now).2 cs
  | .backoff jitter now :: cs => answers (p.backoffS jitter now).2 cs

/-! ### The decision over everything granted -/

/-- The answer to each crash, given the restarts granted before. -/
def decided (capacity : ℕ) (w : τ) (granted : List τ) : List τ → List (τ × Bool)
  | [] => []
  | t :: ts =>
    if capacity ≤ granted.countP (t - w < ·) then (t, false) :: decided capacity w granted ts
    else (t, true) :: decided capacity w (granted ++ [t]) ts

/-- The restarts among answered crashes whose time is in a set. -/
def restarts (S : τ → Bool) (as : List (τ × Bool)) : ℕ := as.countP fun a => a.2 && S a.1

variable {capacity : ℕ} {w : τ}

/-- The crashes of the calls, in order. -/
def crashTimes (cs : List (Call τ)) : List τ := (cs.filter Call.isCrash).map Call.time

/-- The kept restarts are, among those granted, all that later windows can hold. -/
def Keeps (p : RestartPolicy τ) (granted : List τ) (now : τ) : Prop :=
  ∀ t, now ≤ t → p.crashes.filter (t - p.window < ·) = granted.filter (t - p.window < ·)

section Keeps

variable {p : RestartPolicy τ} {granted : List τ} {now t : τ}

lemma Keeps.later (h : p.Keeps granted now) (ht : now ≤ t) : p.Keeps granted t :=
  fun u hu => h u (ht.trans hu)

lemma Keeps.length_prune (h : p.Keeps granted t) :
    (p.prune t).crashes.length = granted.countP (t - p.window < ·) := by
  rw [List.countP_eq_length_filter, ← h t le_rfl]
  rfl

lemma Keeps.snoc (h : p.Keeps granted t) :
    Keeps { p with crashes := p.crashes ++ [t] } (granted ++ [t]) t := by
  intro u hu
  rw [List.filter_append, List.filter_append]
  exact congrArg (· ++ _) (h u hu)

end Keeps

/-! ### The budget -/

/-- Times closer together than a window. -/
def Short (w : τ) (S : τ → Bool) : Prop := ∀ x y, S x = true → S y = true → x - w < y

/-- A restart granted at a time finds fewer than the capacity in every window that holds it. -/
lemma decided_bounded {S : τ → Bool} (hS : Short w S) (granted ts : List τ)
    (h : granted.countP S ≤ capacity) :
    granted.countP S + restarts S (decided capacity w granted ts) ≤ capacity := by
  induction ts generalizing granted with
  | nil => simpa [decided, restarts] using h
  | cons t ts ih =>
    rw [decided]
    split_ifs with hfull
    · simpa [restarts] using ih granted h
    · have hsnoc : (granted ++ [t]).countP S ≤ capacity := by
        rw [List.countP_append, List.countP_singleton]
        split_ifs with ht
        · have hle : granted.countP S ≤ granted.countP (t - w < ·) :=
            List.countP_mono_left fun x _ hx => decide_eq_true (hS t x ht hx)
          omega
        · omega
      have hrest := ih (granted ++ [t]) hsnoc
      rw [List.countP_append, List.countP_singleton] at hrest
      simp only [restarts, List.countP_cons, Bool.true_and] at hrest ⊢
      omega

/-- A crash is refused when the window before it is full. -/
lemma decided_refused {t : τ} {ts : List τ} {bs cs : List (τ × Bool)} {granted : List τ}
    (h : decided capacity w granted ts = bs ++ (t, false) :: cs) :
    capacity ≤ granted.countP (t - w < ·) + restarts (t - w < ·) bs := by
  induction ts generalizing granted bs with
  | nil => simp [decided] at h
  | cons u ts ih =>
    rw [decided] at h
    rcases bs with - | ⟨b, bs⟩
    · split_ifs at h with hfull
      · rw [List.nil_append, List.cons.injEq, Prod.mk.injEq] at h
        rw [← h.1.1]
        omega
      · simp at h
    · split_ifs at h with hfull
      · rw [List.cons_append, List.cons.injEq] at h
        have := ih h.2
        simp only [restarts, List.countP_cons] at this ⊢
        omega
      · rw [List.cons_append, List.cons.injEq] at h
        have := ih h.2
        rw [List.countP_append, List.countP_singleton] at this
        simp only [restarts, ← h.1, List.countP_cons, Bool.true_and] at this ⊢
        omega

lemma decided_times (granted ts : List τ) :
    (decided capacity w granted ts).map Prod.fst = ts := by
  induction ts generalizing granted with
  | nil => rfl
  | cons t ts ih =>
    rw [decided]
    split_ifs <;> rw [List.map_cons, ih]

/-! ### Every run -/

variable [IsOrderedAddMonoid τ]

/-- Pruning at a time drops nothing that this or a later window holds. -/
lemma Keeps.prune {p : RestartPolicy τ} {granted : List τ} {t : τ} (h : p.Keeps granted t) :
    (p.prune t).Keeps granted t := by
  intro u hu
  have hsub : (p.crashes.filter (t - p.window < ·)).filter (u - p.window < ·) =
      p.crashes.filter (u - p.window < ·) := by
    rw [List.filter_filter]
    refine List.filter_congr fun x _ => ?_
    rw [Bool.and_eq_left_iff_imp, decide_eq_true_eq, decide_eq_true_eq]
    exact (sub_le_sub_right hu p.window).trans_lt
  exact hsub.trans (h u hu)

/-- **Pruning never shows**: the answers are those of the decision over all granted restarts. -/
lemma answers_eq_decided {p : RestartPolicy τ} {granted : List τ} {now : τ} {cs : List (Call τ)}
    (h : p.Keeps granted now) (hcs : ((now :: cs.map Call.time)).Pairwise (· ≤ ·)) :
    p.answers cs = decided p.capacity p.window granted (crashTimes cs) := by
  induction cs generalizing p granted now with
  | nil => rfl
  | cons c cs ih =>
    rw [List.map_cons, List.pairwise_cons] at hcs
    have hpruned := (h.later (hcs.1 c.time List.mem_cons_self)).prune
    have hcount := (h.later (hcs.1 c.time List.mem_cons_self)).length_prune
    cases c with
    | crash t =>
      rw [show crashTimes (.crash t :: cs) = t :: crashTimes cs from rfl, answers, decided]
      by_cases hfull : p.capacity ≤ granted.countP (t - p.window < ·)
      · have hrec : p.recordCrash t = (false, p.prune t) := by
          simp only [recordCrash]
          exact if_pos (hcount.symm ▸ hfull)
        rw [if_pos hfull, hrec]
        exact congrArg _ (ih hpruned hcs.2)
      · have hrec : p.recordCrash t =
            (true, { p.prune t with crashes := (p.prune t).crashes ++ [t] }) := by
          simp only [recordCrash]
          exact if_neg (hcount.symm ▸ hfull)
        rw [if_neg hfull, hrec]
        exact congrArg _ (ih hpruned.snoc hcs.2)
    | attempt t => exact ih hpruned hcs.2
    | backoff jitter t => exact ih hpruned hcs.2

lemma short_Ico (a : τ) : Short w fun t => a ≤ t && t < a + w := by
  intro x y hx hy
  simp only [Bool.and_eq_true, decide_eq_true_eq] at hx hy
  exact (sub_lt_iff_lt_add.mpr hx.2).trans_le hy.1

lemma short_Ioc (a : τ) : Short w fun t => a < t && t ≤ a + w := by
  intro x y hx hy
  simp only [Bool.and_eq_true, decide_eq_true_eq] at hx hy
  exact (sub_le_iff_le_add.mpr hx.2).trans_lt hy.1

/-- **Restarts stay within the budget.** In a run of calls at non-decreasing times, every window
holds at most the capacity of restarts, closed on the left or on the right; a crash is refused only
when the window that ends with it holds the capacity; and the calls that only prune change no
answer. -/
theorem restarts_bounded (capacity : ℕ) (w : τ) (cs : List (Call τ))
    (hcs : (cs.map Call.time).Pairwise (· ≤ ·)) :
    (∀ a, restarts (fun t => a ≤ t && t < a + w)
        (answers { capacity := capacity, window := w } cs) ≤ capacity) ∧
      (∀ a, restarts (fun t => a < t && t ≤ a + w)
        (answers { capacity := capacity, window := w } cs) ≤ capacity) ∧
      (∀ bs t ds, answers { capacity := capacity, window := w } cs = bs ++ (t, false) :: ds →
        capacity ≤ restarts (fun u => t - w < u && u ≤ t) bs) ∧
      answers { capacity := capacity, window := w } cs =
        answers { capacity := capacity, window := w } (cs.filter Call.isCrash) := by
  have hdecided : ∀ ds : List (Call τ), (ds.map Call.time).Pairwise (· ≤ ·) →
      answers { capacity := capacity, window := w } ds =
        decided capacity w [] (crashTimes ds) := by
    intro ds hds
    rcases ds with - | ⟨d, ds⟩
    · rfl
    · have hkeeps : Keeps { capacity := capacity, window := w } [] d.time := fun t _ => rfl
      refine answers_eq_decided hkeeps ?_
      rw [List.pairwise_cons]
      refine ⟨fun t ht => ?_, hds⟩
      rcases List.mem_cons.mp ht with rfl | ht
      · exact le_rfl
      · exact (List.pairwise_cons.mp hds).1 t ht
  have hcrash : (crashTimes cs).Pairwise (· ≤ ·) :=
    hcs.sublist (List.filter_sublist.map Call.time)
  rw [hdecided cs hcs]
  refine ⟨fun a => ?_, fun a => ?_, fun bs t ds h => ?_, ?_⟩
  · simpa using decided_bounded (short_Ico a) [] (crashTimes cs) (Nat.zero_le _)
  · simpa using decided_bounded (short_Ioc a) [] (crashTimes cs) (Nat.zero_le _)
  · have hfull := decided_refused h
    rw [List.countP_nil, Nat.zero_add] at hfull
    rw [← decided_times [] (crashTimes cs), h] at hcrash
    refine hfull.trans (List.countP_mono_left fun b hb hw => ?_)
    have hle : b.1 ≤ t := by
      rw [List.map_append, List.pairwise_append] at hcrash
      exact hcrash.2.2 b.1 (List.mem_map_of_mem hb) t (by simp)
    simp only [Bool.and_eq_true, decide_eq_true_eq] at hw ⊢
    exact ⟨hw.1, hw.2, hle⟩
  · rw [hdecided (cs.filter Call.isCrash) (hcs.sublist (List.filter_sublist.map Call.time))]
    simp [crashTimes]

/-- Four crashes against a capacity of two, pruned in between. -/
theorem restarts_bounded_sample :
    let p : RestartPolicy ℚ := { capacity := 2, window := 10 }
    let cs : List (Call ℚ) :=
      [.crash 0, .backoff (1 / 2) 0, .crash 1, .attempt 4, .crash 5, .crash 10]
    (∀ a, restarts (fun t => a ≤ t && t < a + 10) (p.answers cs) ≤ 2) ∧
      (∀ a, restarts (fun t => a < t && t ≤ a + 10) (p.answers cs) ≤ 2) ∧
      (∀ bs t ds, p.answers cs = bs ++ (t, false) :: ds →
        2 ≤ restarts (fun u => t - 10 < u && u ≤ t) bs) ∧
      p.answers cs = p.answers (cs.filter Call.isCrash) :=
  restarts_bounded 2 10 _ (by simp [Call.time]; norm_num)

end RestartPolicy

end PumpGrok
