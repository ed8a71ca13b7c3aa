import PumpGrok.Lib.Runs

/-!
The virtual clock: sleeps and timeouts sit in one queue, and an advance fires every timer due on the
way, in the order of due time and then of registration. A sleeper's wake-up is the firing of its
timer, which gives its future a result. What happens to the clock after each firing is arbitrary:
sleeps, cancellations, timeouts entered and left. An advance itself runs no task between two
firings; a script that does is more than the code can do.
-/

namespace PumpGrok

/-- What a timer does: wake the sleeper it was made for, or cancel the task of a timeout. -/
inductive TimerFire where
  | wake
  | expire
  deriving DecidableEq

structure Timer where
  due : ℚ
  seq : ℕ
  fire : TimerFire
  active : Bool := true
  deriving DecidableEq

namespace Timer

def Le (t u : Timer) : Prop := t.due < u.due ∨ t.due = u.due ∧ t.seq ≤ u.seq

instance : DecidableRel Le := fun _ _ => inferInstanceAs (Decidable (_ ∨ _))

instance : Std.Total Le where
  total t u := by
    rcases lt_trichotomy t.due u.due with h | h | h
    · exact .inl (.inl h)
    · rcases le_total t.seq u.seq with hs | hs
      · exact .inl (.inr ⟨h, hs⟩)
      · exact .inr (.inr ⟨h.symm, hs⟩)
    · exact .inr (.inl h)

instance : IsTrans Timer Le where
  trans t u v := by
    rintro (h | ⟨h, hs⟩) (h' | ⟨h', hs'⟩)
    · exact .inl (h.trans h')
    · exact .inl (h' ▸ h)
    · exact .inl (h ▸ h')
    · exact .inr ⟨h.trans h', hs.trans hs'⟩

end Timer

inductive WaiterState where
  | pending
  | woken
  | cancelled
  deriving DecidableEq

/-- The future a sleeper waits for, and when it is due. -/
structure Waiter where
  due : ℚ
  state : WaiterState
  deriving DecidableEq

/-- One timer fired: what the clock read then, and whether a sleeper was woken. -/
structure Firing where
  seq : ℕ
  due : ℚ
  reading : ℚ
  woke : Bool
  deriving DecidableEq

/-- Sleepers are named by the number of their timer. -/
structure FixtureClock where
  now : ℚ
  timers : List Timer := []
  seq : ℕ := 0
  waiters : ℕ → Option Waiter := fun _ => none
  firings : List Firing := []

/-- What a task does to the clock. -/
inductive TaskOp where
  | sleep (seconds : ℚ)
  | cancel (sleeper : ℕ)
  | enterTimeout (seconds : ℚ)
  | exitTimeout (timer : ℕ)

namespace FixtureClock

/-- Queue a timer; the delay is not negative. -/
def schedule (c : FixtureClock) (delay : ℚ) (fire : TimerFire) : FixtureClock :=
  { c with
    timers := c.timers.orderedInsert Timer.Le { due := c.now + delay, seq := c.seq, fire := fire }
    seq := c.seq + 1 }

/-- A sleep of some seconds registers a waiter that is due so much later. -/
def sleep (c : FixtureClock) (seconds : ℚ) : FixtureClock :=
  if seconds < 0 then c
  else
    { c.schedule seconds .wake with
      waiters :=
        Function.update c.waiters c.seq (some { due := c.now + seconds, state := .pending }) }

/-- Put a pending waiter into another state; a waiter that is done stays as it is. -/
def settle (c : FixtureClock) (n : ℕ) (state : WaiterState) : FixtureClock :=
  match c.waiters n with
  | some { due, state := .pending } =>
    { c with waiters := Function.update c.waiters n (some { due, state }) }
  | _ => c

def enterTimeout (c : FixtureClock) (seconds : ℚ) : FixtureClock :=
  if seconds < 0 then c else c.schedule seconds .expire

/-- Leaving a timeout makes its timer inactive. -/
def exitTimeout (c : FixtureClock) (n : ℕ) : FixtureClock :=
  { c with timers := c.timers.map fun t =>
      if t.seq = n ∧ t.fire = .expire then { t with active := false } else t }

def op (c : FixtureClock) : TaskOp → FixtureClock
  | .sleep seconds => c.sleep seconds
  | .cancel n => c.settle n .cancelled
  | .enterTimeout seconds => c.enterTimeout seconds
  | .exitTimeout n => c.exitTimeout n

def isPending (c : FixtureClock) (n : ℕ) : Bool :=
  (c.waiters n).any fun w => w.state = .pending

/-- `timer.fire()`. -/
def fire (c : FixtureClock) (t : Timer) : FixtureClock :=
  let woke := decide (t.fire = .wake) && c.isPending t.seq
  let fired := { c with firings := c.firings ++
    [{ seq := t.seq, due := t.due, reading := c.now, woke := woke }] }
  if woke then fired.settle t.seq .woken else fired

/-- Fire what is due. After each firing the tasks do what the script says next. -/
def drain (ts : ℚ) : ℕ → List (List TaskOp) → FixtureClock → FixtureClock
  | 0, _, c => c
  | fuel + 1, script, c =>
    match c.timers with
    | [] => c
    | t :: rest =>
      if t.due ≤ ts then
        if t.active then
          drain ts fuel script.tail
            ((script.headD []).foldl op (fire { c with now := t.due, timers := rest } t))
        else drain ts fuel script { c with timers := rest }
      else c

/-- Every timer of the queue, and every one the script can add. -/
def drainFuel (c : FixtureClock) (script : List (List TaskOp)) : ℕ :=
  c.timers.length + (script.map List.length).sum

def advanceTo (c : FixtureClock) (ts : ℚ) (script : List (List TaskOp)) : FixtureClock :=
  if ts < c.now then c else { drain ts (c.drainFuel script) script c with now := ts }

end FixtureClock

inductive ClockAction where
  | task (o : TaskOp)
  | advanceTo (ts : ℚ) (script : List (List TaskOp))

namespace FixtureClock

def step (c : FixtureClock) : ClockAction → FixtureClock
  | .task o => c.op o
  | .advanceTo ts script => c.advanceTo ts script

/-! ### The invariant -/

/-- Due earlier, or registered earlier for the same time. -/
def Earlier (d : ℚ) (n : ℕ) (d' : ℚ) (n' : ℕ) : Prop := d < d' ∨ d = d' ∧ n < n'

/-- The queue is sorted, numbered and ahead of the clock; sleepers that wait have their timer in
it. -/
structure Queued (c : FixtureClock) : Prop where
  sorted : c.timers.Pairwise Timer.Le
  seqs : (c.timers.map Timer.seq).Nodup
  fresh : ∀ t ∈ c.timers, t.seq < c.seq
  ahead : ∀ t ∈ c.timers, c.now ≤ t.due
  active : ∀ t ∈ c.timers, t.fire = .wake → t.active = true
  known : ∀ n, c.waiters n ≠ none → n < c.seq
  due : ∀ t ∈ c.timers, t.fire = .wake →
    ∃ w, c.waiters t.seq = some w ∧ w.due = t.due ∧ w.state ≠ .woken
  waiting : ∀ n w, c.waiters n = some w → w.state = .pending →
    ∃ t ∈ c.timers, t.seq = n ∧ t.fire = .wake ∧ t.due = w.due

/-- The firings are in order, on time and once each, and woke the sleepers that are woken. -/
structure Logged (c : FixtureClock) : Prop where
  order : c.firings.Pairwise fun f g => Earlier f.due f.seq g.due g.seq
  once : (c.firings.map Firing.seq).Nodup
  onTime : ∀ f ∈ c.firings, f.reading = f.due ∧ f.due ≤ c.now
  numbered : ∀ f ∈ c.firings, f.seq < c.seq
  before : ∀ f ∈ c.firings, ∀ t ∈ c.timers, f.seq ≠ t.seq ∧ Earlier f.due f.seq t.due t.seq
  woke : ∀ f ∈ c.firings, f.woke = true → c.waiters f.seq = some { due := f.due, state := .woken }
  woken : ∀ n w, c.waiters n = some w → w.state = .woken →
    ∃ f ∈ c.firings, f.seq = n ∧ f.woke = true

structure Inv (c : FixtureClock) : Prop extends Queued c, Logged c

variable {c : FixtureClock}

lemma inv_start (start : ℚ) : Inv { now := start } where
  sorted := List.Pairwise.nil
  seqs := List.nodup_nil
  fresh t ht := by simp at ht
  ahead t ht := by simp at ht
  active t ht := by simp at ht
  known n hn := absurd rfl hn
  due t ht := by simp at ht
  waiting n w hw := nomatch hw
  order := List.Pairwise.nil
  once := List.nodup_nil
  onTime f hf := by simp at hf
  numbered f hf := by simp at hf
  before f hf := by simp at hf
  woke f hf := by simp at hf
  woken n w hw := nomatch hw

/-! ### Operations -/

lemma mem_schedule {delay : ℚ} {f : TimerFire} {t : Timer} :
    t ∈ (c.schedule delay f).timers ↔
      t = { due := c.now + delay, seq := c.seq, fire := f } ∨ t ∈ c.timers :=
  List.mem_orderedInsert _

/-- A new timer, with its sleeper if it has one. -/
lemma Inv.schedule {delay : ℚ} {f : TimerFire} {waiters : ℕ → Option Waiter} (h : c.Inv)
    (hd : 0 ≤ delay) (hw : ∀ n ≠ c.seq, waiters n = c.waiters n)
    (hnew : waiters c.seq =
      if f = .wake then some { due := c.now + delay, state := .pending } else none) :
    Inv { c.schedule delay f with waiters := waiters } := by
  have hperm : (c.schedule delay f).timers.Perm
      ({ due := c.now + delay, seq := c.seq, fire := f } :: c.timers) :=
    List.perm_orderedInsert _ _ _
  have hold : ∀ t ∈ c.timers, waiters t.seq = c.waiters t.seq := fun t ht =>
    hw t.seq (h.fresh t ht).ne
  constructor <;> constructor
  case sorted => exact h.sorted.orderedInsert _ _
  case seqs =>
    refine ((hperm.map Timer.seq).nodup_iff).mpr ?_
    rw [List.map_cons, List.nodup_cons]
    refine ⟨fun hmem => ?_, h.seqs⟩
    obtain ⟨t, ht, hseq⟩ := List.mem_map.mp hmem
    exact absurd hseq (h.fresh t ht).ne
  case fresh =>
    intro t ht
    rcases mem_schedule.mp ht with rfl | ht
    · exact Nat.lt_succ_self _
    · exact (h.fresh t ht).trans (Nat.lt_succ_self _)
  case ahead =>
    intro t ht
    rcases mem_schedule.mp ht with rfl | ht
    · show c.now ≤ c.now + delay
      linarith
    · exact h.ahead t ht
  case active =>
    intro t ht hf
    rcases mem_schedule.mp ht with rfl | ht
    · rfl
    · exact h.active t ht hf
  case known =>
    intro n hn
    by_cases he : n = c.seq
    · rw [he]
      exact Nat.lt_succ_self _
    · replace hn : waiters n ≠ none := hn
      rw [hw n he] at hn
      exact (h.known n hn).trans (Nat.lt_succ_self _)
  case due =>
    intro t ht hf
    rcases mem_schedule.mp ht with rfl | ht
    · refine ⟨{ due := c.now + delay, state := .pending }, ?_, rfl, by simp⟩
      exact hnew.trans (if_pos hf)
    · obtain ⟨w, hwt, hdue, hstate⟩ := h.due t ht hf
      exact ⟨w, (hold t ht).trans hwt, hdue, hstate⟩
  case waiting =>
    intro n w hn hp
    by_cases he : n = c.seq
    · replace hn : waiters n = some w := hn
      rw [he, hnew] at hn
      split_ifs at hn with hf
      obtain rfl := Option.some.inj hn
      exact ⟨_, mem_schedule.mpr (.inl rfl), he.symm, hf, rfl⟩
    · obtain ⟨t, ht, hseq, hf, hdue⟩ := h.waiting n w ((hw n he).symm.trans hn) hp
      exact ⟨t, mem_schedule.mpr (.inr ht), hseq, hf, hdue⟩
  case order => exact h.order
  case once => exact h.once
  case onTime => exact h.onTime
  case numbered => exact fun g hg => (h.numbered g hg).trans (Nat.lt_succ_self _)
  case before =>
    intro g hg t ht
    rcases mem_schedule.mp ht with rfl | ht
    · refine ⟨(h.numbered g hg).ne, ?_⟩
      have hle : g.due ≤ c.now + delay := by linarith [(h.onTime g hg).2]
      rcases hle.lt_or_eq with hlt | heq
      · exact .inl hlt
      · exact .inr ⟨heq, h.numbered g hg⟩
    · exact h.before g hg t ht
  case woke =>
    intro g hg hwoke
    exact (hw g.seq (h.numbered g hg).ne).trans (h.woke g hg hwoke)
  case woken =>
    intro n w hn hs
    by_cases he : n = c.seq
    · replace hn : waiters n = some w := hn
      rw [he, hnew] at hn
      split_ifs at hn with hf
      obtain rfl := Option.some.inj hn
      exact nomatch hs
    · exact h.woken n w ((hw n he).symm.trans hn) hs

/-- Settling a waiter changes it when it is pending, and nothing else. -/
lemma settle_cases (c : FixtureClock) (n : ℕ) (state : WaiterState) :
    c.isPending n = false ∧ c.settle n state = c ∨
      ∃ due, c.waiters n = some { due, state := .pending } ∧ c.settle n state =
        { c with waiters := Function.update c.waiters n (some { due, state }) } := by
  unfold settle isPending
  rcases hw : c.waiters n with - | ⟨due, _ | _ | _⟩
  · exact .inl ⟨rfl, rfl⟩
  · exact .inr ⟨due, rfl, rfl⟩
  · exact .inl ⟨rfl, rfl⟩
  · exact .inl ⟨rfl, rfl⟩

lemma Inv.cancel (h : c.Inv) (n : ℕ) : (c.settle n .cancelled).Inv := by
  rcases settle_cases c n .cancelled with ⟨-, he⟩ | ⟨due, hn, he⟩
  · rwa [he]
  rw [he]
  have hget : ∀ m w, Function.update c.waiters n (some { due, state := .cancelled }) m = some w →
      m = n ∧ w = { due, state := .cancelled } ∨ m ≠ n ∧ c.waiters m = some w := by
    intro m w hm
    by_cases hmn : m = n
    · rw [hmn, Function.update_self] at hm
      exact .inl ⟨hmn, (Option.some.inj hm).symm⟩
    · rw [Function.update_of_ne hmn] at hm
      exact .inr ⟨hmn, hm⟩
  refine ⟨⟨h.sorted, h.seqs, h.fresh, h.ahead, h.active, fun m hm => ?_, fun t ht hf => ?_,
    fun m w hm hp => ?_⟩, ⟨h.order, h.once, h.onTime, h.numbered, h.before, fun f hf hwoke => ?_,
    fun m w hm hs => ?_⟩⟩
  · by_cases hmn : m = n
    · exact h.known m (by rw [hmn, hn]; simp)
    · exact h.known m (by simpa [Function.update_of_ne hmn] using hm)
  · obtain ⟨w, hw, hdue, hstate⟩ := h.due t ht hf
    by_cases htn : t.seq = n
    · rw [htn, hn] at hw
      obtain rfl := Option.some.inj hw
      refine ⟨{ due, state := .cancelled }, ?_, hdue, by simp⟩
      show Function.update c.waiters n _ t.seq = _
      rw [htn, Function.update_self]
    · exact ⟨w, (Function.update_of_ne htn _ _).trans hw, hdue, hstate⟩
  · rcases hget m w hm with ⟨-, rfl⟩ | ⟨-, hm⟩
    · exact nomatch hp
    · exact h.waiting m w hm hp
  · have hw := h.woke f hf hwoke
    have hne : f.seq ≠ n := by
      rintro rfl
      rw [hn] at hw
      exact nomatch hw
    exact (Function.update_of_ne hne _ _).trans hw
  · rcases hget m w hm with ⟨-, rfl⟩ | ⟨-, hm⟩
    · exact nomatch hs
    · exact h.woken m w hm hs

lemma Inv.exitTimeout (h : c.Inv) (n : ℕ) : (c.exitTimeout n).Inv := by
  have hmem : ∀ t ∈ (c.exitTimeout n).timers, ∃ u ∈ c.timers, t.due = u.due ∧ t.seq = u.seq ∧
      t.fire = u.fire ∧ (t.fire = .wake → t = u) := by
    intro t ht
    obtain ⟨u, hu, rfl⟩ := List.mem_map.mp ht
    refine ⟨u, hu, ?_⟩
    split_ifs with hif
    · exact ⟨rfl, rfl, rfl, fun hf => by rw [hif.2] at hf; exact nomatch hf⟩
    · exact ⟨rfl, rfl, rfl, fun _ => rfl⟩
  refine ⟨⟨?_, ?_, fun t ht => ?_, fun t ht => ?_, fun t ht hf => ?_, h.known, fun t ht hf => ?_,
    fun m w hm hp => ?_⟩, ⟨h.order, h.once, h.onTime, h.numbered, fun f hf t ht => ?_, h.woke,
    h.woken⟩⟩
  · refine List.Pairwise.map _ (fun t u htu => ?_) h.sorted
    unfold Timer.Le at htu ⊢
    split_ifs <;> exact htu
  · have hseq : (c.exitTimeout n).timers.map Timer.seq = c.timers.map Timer.seq := by
      rw [FixtureClock.exitTimeout, List.map_map]
      refine List.map_congr_left fun t _ => ?_
      simp only [Function.comp_apply]
      split_ifs <;> rfl
    rw [hseq]
    exact h.seqs
  · obtain ⟨u, hu, -, hseq, -, -⟩ := hmem t ht
    rw [hseq]
    exact h.fresh u hu
  · obtain ⟨u, hu, hdue, -⟩ := hmem t ht
    rw [hdue]
    exact h.ahead u hu
  · obtain ⟨u, hu, -, -, -, heq⟩ := hmem t ht
    obtain rfl := heq hf
    exact h.active t hu hf
  · obtain ⟨u, hu, -, -, -, heq⟩ := hmem t ht
    obtain rfl := heq hf
    exact h.due t hu hf
  · obtain ⟨t, ht, hseq, hf, hdue⟩ := h.waiting m w hm hp
    refine ⟨t, List.mem_map.mpr ⟨t, ht, if_neg ?_⟩, hseq, hf, hdue⟩
    simp [hf]
  · obtain ⟨u, hu, hdue, hseq, -⟩ := hmem t ht
    rw [hdue, hseq]
    exact h.before f hf u hu

lemma Inv.op (h : c.Inv) (o : TaskOp) : (c.op o).Inv := by
  cases o with
  | sleep seconds =>
    show (c.sleep seconds).Inv
    unfold FixtureClock.sleep
    split_ifs with hs
    · exact h
    · exact h.schedule (not_lt.mp hs) (fun n hn => Function.update_of_ne hn _ _)
        (Function.update_self _ _ _)
  | cancel n => exact h.cancel n
  | enterTimeout seconds =>
    show (c.enterTimeout seconds).Inv
    unfold FixtureClock.enterTimeout
    split_ifs with hs
    · exact h
    · refine h.schedule (not_lt.mp hs) (fun n _ => rfl) ?_
      rw [if_neg (by simp)]
      by_contra hk
      exact absurd (h.known _ hk) (lt_irrefl _)
  | exitTimeout n => exact h.exitTimeout n

/-! ### Firing -/

section First

variable {t : Timer} {rest : List Timer} (h : c.Inv) (ht : c.timers = t :: rest)
include h ht

lemma Inv.rest_seq {u : Timer} (hu : u ∈ rest) : u.seq ≠ t.seq := by
  have hseqs := h.seqs
  rw [ht, List.map_cons, List.nodup_cons] at hseqs
  exact fun he => hseqs.1 (he ▸ List.mem_map_of_mem hu)

lemma Inv.first_of_seq {u : Timer} (hu : u ∈ c.timers) (hs : u.seq = t.seq) : u = t := by
  rw [ht] at hu
  exact (List.mem_cons.mp hu).resolve_right fun hr => h.rest_seq ht hr hs

lemma Inv.rest_later {u : Timer} (hu : u ∈ rest) : Earlier t.due t.seq u.due u.seq := by
  have hsorted := h.sorted
  rw [ht] at hsorted
  rcases (List.pairwise_cons.mp hsorted).1 u hu with hlt | ⟨heq, hle⟩
  · exact .inl hlt
  · exact .inr ⟨heq, lt_of_le_of_ne hle (h.rest_seq ht hu).symm⟩

/-- The first timer leaves the queue, fired or dropped: no sleeper waits for it any more. -/
lemma Inv.queued_rest {now : ℚ} {waiters : ℕ → Option Waiter} {firings : List Firing}
    (hnow : now ≤ t.due) (hw : ∀ n ≠ t.seq, waiters n = c.waiters n)
    (hone : ∀ w, waiters t.seq = some w → w.state ≠ .pending) :
    Queued { c with now := now, timers := rest, waiters := waiters, firings := firings } := by
  have hmem : ∀ u ∈ rest, u ∈ c.timers := fun u hu => by
    rw [ht]
    exact List.mem_cons_of_mem _ hu
  have hsorted := h.sorted
  have hseqs := h.seqs
  rw [ht] at hsorted hseqs
  refine ⟨hsorted.of_cons, hseqs.of_cons, fun u hu => h.fresh u (hmem u hu), fun u hu => ?_,
    fun u hu => h.active u (hmem u hu), fun n hn => ?_, fun u hu hf => ?_, fun n w hn hp => ?_⟩
  · rcases h.rest_later ht hu with hlt | ⟨heq, -⟩
    · exact hnow.trans hlt.le
    · exact hnow.trans heq.le
  · by_cases he : n = t.seq
    · rw [he]
      exact h.fresh t (by rw [ht]; simp)
    · exact h.known n (by rw [← hw n he]; exact hn)
  · obtain ⟨w, hwu, hdue, hstate⟩ := h.due u (hmem u hu) hf
    exact ⟨w, (hw u.seq (h.rest_seq ht hu)).trans hwu, hdue, hstate⟩
  · by_cases he : n = t.seq
    · subst he
      exact absurd hp (hone w hn)
    · obtain ⟨u, hu, hseq, hf, hdue⟩ := h.waiting n w ((hw n he).symm.trans hn) hp
      refine ⟨u, ?_, hseq, hf, hdue⟩
      rw [ht] at hu
      exact (List.mem_cons.mp hu).resolve_left fun hut => he (by rw [← hseq, hut])

/-- The queue without a first timer no sleeper waits for. -/
lemma Inv.drop (hp : ∀ w, c.waiters t.seq = some w → w.state ≠ .pending) :
    Inv { c with timers := rest } := by
  have hfirst : t ∈ c.timers := by
    rw [ht]
    simp
  refine ⟨h.queued_rest ht (h.ahead t hfirst) (fun _ _ => rfl) hp, h.order, h.once, h.onTime,
    h.numbered, fun f hf u hu => h.before f hf u ?_, h.woke, h.woken⟩
  rw [ht]
  exact List.mem_cons_of_mem _ hu

/-- The first timer has fired. -/
lemma Inv.fired {woke : Bool} {waiters : ℕ → Option Waiter}
    (hw : ∀ n ≠ t.seq, waiters n = c.waiters n)
    (hone : ∀ w, waiters t.seq = some w → w.state ≠ .pending)
    (hwoke : waiters t.seq = if woke then some { due := t.due, state := .woken }
      else c.waiters t.seq) :
    Inv { c with
      now := t.due
      timers := rest
      waiters := waiters
      firings :=
        c.firings ++ [{ seq := t.seq, due := t.due, reading := t.due, woke := woke }] } := by
  have hfirst : t ∈ c.timers := by
    rw [ht]
    simp
  have hrest : ∀ u ∈ rest, u ∈ c.timers := fun u hu => by
    rw [ht]
    exact List.mem_cons_of_mem _ hu
  have hmem : ∀ f ∈ c.firings ++ [{ seq := t.seq, due := t.due, reading := t.due, woke := woke }],
      f ∈ c.firings ∨ f = { seq := t.seq, due := t.due, reading := t.due, woke := woke } := by
    intro f hf
    simpa using hf
  refine ⟨h.queued_rest ht le_rfl hw hone, ?_, ?_, fun f hf => ?_, fun f hf => ?_,
    fun f hf u hu => ?_, fun f hf hfw => ?_, fun n w hn hs => ?_⟩
  · refine List.pairwise_append.mpr ⟨h.order, List.pairwise_singleton _ _, fun f hf g hg => ?_⟩
    rw [List.mem_singleton] at hg
    subst hg
    exact (h.before f hf t hfirst).2
  · rw [List.map_append, List.map_singleton, List.nodup_append]
    refine ⟨h.once, List.nodup_singleton _, ?_⟩
    rintro n hn m hm rfl
    obtain ⟨f, hf, hseq⟩ := List.mem_map.mp hn
    exact (h.before f hf t hfirst).1 (hseq.trans (List.mem_singleton.mp hm))
  · rcases hmem f hf with hf | rfl
    · obtain ⟨hr, hle⟩ := h.onTime f hf
      exact ⟨hr, hle.trans (h.ahead t hfirst)⟩
    · exact ⟨rfl, le_rfl⟩
  · rcases hmem f hf with hf | rfl
    · exact h.numbered f hf
    · exact h.fresh t hfirst
  · rcases hmem f hf with hf | rfl
    · exact h.before f hf u (hrest u hu)
    · exact ⟨(h.rest_seq ht hu).symm, h.rest_later ht hu⟩
  · rcases hmem f hf with hf | rfl
    · exact (hw f.seq (h.before f hf t hfirst).1).trans (h.woke f hf hfw)
    · exact hwoke.trans (if_pos hfw)
  · have hold : c.waiters n = some w → ∃ f ∈ c.firings ++
        [{ seq := t.seq, due := t.due, reading := t.due, woke := woke }],
        f.seq = n ∧ f.woke = true := fun hc => by
      obtain ⟨f, hf, hseq, hfw⟩ := h.woken n w hc hs
      exact ⟨f, List.mem_append_left _ hf, hseq, hfw⟩
    by_cases he : n = t.seq
    · subst he
      by_cases hb : woke = true
      · exact ⟨_, List.mem_append_right _ (List.mem_singleton.mpr rfl), rfl, hb⟩
      · rw [if_neg hb] at hwoke
        exact hold (hwoke.symm.trans hn)
    · exact hold ((hw n he).symm.trans hn)

/-- **Firing the first timer** of the queue. -/
lemma Inv.fire : (fire { c with now := t.due, timers := rest } t).Inv := by
  have hfirst : t ∈ c.timers := by
    rw [ht]
    simp
  by_cases hwoke : t.fire = .wake ∧ c.isPending t.seq = true
  · have hb : (decide (t.fire = .wake) &&
        ({ c with now := t.due, timers := rest } : FixtureClock).isPending t.seq) = true := by
      rw [Bool.and_eq_true, decide_eq_true_eq]
      exact hwoke
    rw [FixtureClock.fire, hb]
    dsimp only
    rw [if_pos rfl]
    rcases settle_cases { c with
        now := t.due
        timers := rest
        firings := c.firings ++ [{ seq := t.seq, due := t.due, reading := t.due, woke := true }] }
      t.seq .woken with ⟨hno, -⟩ | ⟨due, hn, he⟩
    · rw [show c.isPending t.seq = false from hno] at hwoke
      exact nomatch hwoke.2
    · rw [he]
      obtain ⟨w, hw, hdue, -⟩ := h.due t hfirst hwoke.1
      obtain rfl : w = { due, state := .pending } := Option.some.inj (hw.symm.trans hn)
      obtain rfl : due = t.due := hdue
      refine h.fired ht (fun n hn => Function.update_of_ne hn _ _) (fun w hw => ?_)
        (Function.update_self _ _ _)
      rw [Function.update_self] at hw
      obtain rfl := Option.some.inj hw
      simp
  · have hb : (decide (t.fire = .wake) &&
        ({ c with now := t.due, timers := rest } : FixtureClock).isPending t.seq) = false := by
      rw [← Bool.not_eq_true, Bool.and_eq_true, decide_eq_true_eq]
      exact hwoke
    rw [FixtureClock.fire, hb]
    dsimp only
    rw [if_neg (by simp)]
    refine h.fired ht (fun _ _ => rfl) (fun w hw hp => ?_) rfl
    -- a pending waiter of this number would make the timer wake it
    obtain ⟨u, hu, hseq, hf, -⟩ := h.waiting _ w hw hp
    obtain rfl := h.first_of_seq ht hu hseq
    exact hwoke ⟨hf, by simp [isPending, hw, hp]⟩

end First

/-! ### Draining -/

lemma Inv.ops (h : c.Inv) (os : List TaskOp) : (os.foldl FixtureClock.op c).Inv := by
  induction os generalizing c with
  | nil => exact h
  | cons o os ih => exact ih (h.op o)

lemma op_now (c : FixtureClock) (o : TaskOp) : (c.op o).now = c.now := by
  cases o with
  | sleep seconds =>
    simp only [op, sleep]
    split_ifs <;> rfl
  | cancel n => rcases settle_cases c n .cancelled with ⟨-, h⟩ | ⟨due, -, h⟩ <;> simp only [op, h]
  | enterTimeout seconds =>
    simp only [op, enterTimeout]
    split_ifs <;> rfl
  | exitTimeout n => rfl

lemma ops_now (c : FixtureClock) (os : List TaskOp) : (os.foldl op c).now = c.now := by
  induction os generalizing c with
  | nil => rfl
  | cons o os ih => exact (ih (c.op o)).trans (op_now c o)

/-- An operation queues one timer at most. -/
lemma length_op_le (c : FixtureClock) (o : TaskOp) :
    (c.op o).timers.length ≤ c.timers.length + 1 := by
  have hs : ∀ delay f, (c.schedule delay f).timers.length = c.timers.length + 1 := fun delay f =>
    List.orderedInsert_length _ _ _
  cases o with
  | sleep seconds =>
    simp only [op, sleep]
    split_ifs
    · omega
    · exact (hs seconds .wake).le
  | cancel n =>
    rcases settle_cases c n .cancelled with ⟨-, h⟩ | ⟨due, -, h⟩ <;> simp [op, h]
  | enterTimeout seconds =>
    simp only [op, enterTimeout]
    split_ifs
    · omega
    · exact (hs seconds .expire).le
  | exitTimeout n =>
    simp only [op, exitTimeout, List.length_map]
    omega

lemma length_ops_le (c : FixtureClock) (os : List TaskOp) :
    (os.foldl op c).timers.length ≤ c.timers.length + os.length := by
  induction os generalizing c with
  | nil => simp
  | cons o os ih =>
    have h₁ := ih (c.op o)
    have h₂ := length_op_le c o
    rw [List.foldl_cons, List.length_cons]
    omega

lemma fire_now (c : FixtureClock) (t : Timer) : (c.fire t).now = c.now := by
  unfold fire
  dsimp only
  split_ifs
  · rcases settle_cases { c with firings := _ } t.seq .woken with ⟨-, h⟩ | ⟨due, -, h⟩ <;> rw [h]
  · rfl

lemma fire_timers (c : FixtureClock) (t : Timer) : (c.fire t).timers = c.timers := by
  unfold fire
  dsimp only
  split_ifs
  · rcases settle_cases { c with firings := _ } t.seq .woken with ⟨-, h⟩ | ⟨due, -, h⟩ <;> rw [h]
  · rfl

/-- **A drain**: the invariant is kept, time moves forward and not past the target, and with
enough fuel nothing due is left. -/
lemma Inv.drain (h : c.Inv) {ts : ℚ} (hts : c.now ≤ ts) (fuel : ℕ) (script : List (List TaskOp))
    (hfuel : c.drainFuel script ≤ fuel) :
    (drain ts fuel script c).Inv ∧ c.now ≤ (drain ts fuel script c).now ∧
      (drain ts fuel script c).now ≤ ts ∧ ∀ t ∈ (drain ts fuel script c).timers, ts < t.due := by
  induction fuel generalizing c script with
  | zero =>
    have hnil : c.timers = [] := by
      unfold drainFuel at hfuel
      exact List.length_eq_zero_iff.mp (by omega)
    refine ⟨h, le_rfl, hts, fun t ht => ?_⟩
    rw [FixtureClock.drain, hnil] at ht
    simp at ht
  | succ fuel ih =>
    rcases ht : c.timers with - | ⟨t, rest⟩
    · simp only [FixtureClock.drain, ht]
      refine ⟨h, le_rfl, hts, fun t hm => ?_⟩
      simp at hm
    simp only [FixtureClock.drain, ht]
    unfold drainFuel at hfuel
    rw [ht, List.length_cons] at hfuel
    have hfirst : t ∈ c.timers := by
      rw [ht]
      simp
    split_ifs with hdue hactive
    · set c' := (script.headD []).foldl FixtureClock.op
          (FixtureClock.fire { c with now := t.due, timers := rest } t)
        with hc'
      have hnow : c'.now = t.due := by rw [hc', ops_now, fire_now]
      have hlen : c'.timers.length ≤ rest.length + (script.headD []).length := by
        have := length_ops_le (FixtureClock.fire { c with now := t.due, timers := rest } t)
          (script.headD [])
        rwa [fire_timers] at this
      have hfuel' : c'.drainFuel script.tail ≤ fuel := by
        unfold drainFuel
        rcases script with - | ⟨os, script⟩
        · simp only [List.headD_nil, List.length_nil, List.tail_nil, List.map_nil, List.sum_nil]
            at hlen hfuel ⊢
          omega
        · simp only [List.headD_cons, List.tail_cons, List.map_cons, List.sum_cons] at hlen hfuel ⊢
          omega
      obtain ⟨hinv, hle, hts', hleft⟩ :=
        ih ((h.fire ht).ops _) (by rw [hnow]; exact hdue) script.tail hfuel'
      refine ⟨hinv, (h.ahead t hfirst).trans ?_, hts', hleft⟩
      rwa [← hnow]
    · have hsleep : ∀ w, c.waiters t.seq = some w → w.state ≠ .pending := by
        intro w hw hp
        obtain ⟨u, hu, hseq, hf, -⟩ := h.waiting _ w hw hp
        obtain rfl := h.first_of_seq ht hu hseq
        exact hactive (h.active u hfirst hf)
      exact ih (h.drop ht hsleep) hts script (by unfold drainFuel; dsimp only; omega)
    · refine ⟨h, le_rfl, hts, fun u hu => ?_⟩
      rw [ht] at hu
      rcases List.mem_cons.mp hu with rfl | hr
      · exact not_le.mp hdue
      · rcases h.rest_later ht hr with hlt | ⟨heq, -⟩
        · exact (not_le.mp hdue).trans hlt
        · exact heq ▸ not_le.mp hdue

/-- **An advance** keeps the invariant and leaves nothing due. -/
lemma Inv.advanceTo (h : c.Inv) {ts : ℚ} (hts : c.now ≤ ts) (script : List (List TaskOp)) :
    (c.advanceTo ts script).Inv ∧ (c.advanceTo ts script).now = ts ∧
      ∀ t ∈ (c.advanceTo ts script).timers, ts < t.due := by
  obtain ⟨hinv, -, hle, hleft⟩ := h.drain hts _ script (le_refl (c.drainFuel script))
  rw [FixtureClock.advanceTo, if_neg (not_lt.mpr hts)]
  refine ⟨⟨⟨hinv.sorted, hinv.seqs, hinv.fresh,
      fun t ht => (hleft t ht).le, hinv.active, hinv.known,
    hinv.due, hinv.waiting⟩, ⟨hinv.order, hinv.once, fun f hf => ?_, hinv.numbered, hinv.before,
    hinv.woke, hinv.woken⟩⟩, rfl, hleft⟩
  obtain ⟨hr, hd⟩ := hinv.onTime f hf
  exact ⟨hr, hd.trans hle⟩

lemma Inv.step (h : c.Inv) (a : ClockAction) : (c.step a).Inv ∧ c.now ≤ (c.step a).now := by
  cases a with
  | task o => exact ⟨h.op o, (op_now c o).ge⟩
  | advanceTo ts script =>
    by_cases hts : ts < c.now
    · have hsame : c.step (.advanceTo ts script) = c := if_pos hts
      rw [hsame]
      exact ⟨h, le_rfl⟩
    · obtain ⟨hinv, hnow, -⟩ := h.advanceTo (not_lt.mp hts) script
      exact ⟨hinv, by rw [FixtureClock.step, hnow]; exact not_lt.mp hts⟩

/-! ### Firing correctly -/

/-- A sleeper was woken: by one firing, at the time it was due. -/
def WokenOnce (c : FixtureClock) (n : ℕ) (due : ℚ) : Prop :=
  ∃! f, f ∈ c.firings ∧ f.seq = n ∧ f.woke = true ∧ f.due = due ∧ f.reading = due

/-- **The clock fires timers correctly.** -/
structure Correct (c : FixtureClock) : Prop where
  /-- Timers fire in the order of due time and then of registration. -/
  order : c.firings.Pairwise fun f g => Earlier f.due f.seq g.due g.seq
  /-- No timer fires twice. -/
  once : (c.firings.map Firing.seq).Nodup
  /-- The clock reads the due time when a timer fires. -/
  onTime : ∀ f ∈ c.firings, f.reading = f.due
  /-- Only sleepers that are woken were. -/
  woke : ∀ f ∈ c.firings, f.woke = true → c.waiters f.seq = some { due := f.due, state := .woken }
  /-- A sleeper whose time is past was woken once, unless it was cancelled. -/
  woken : ∀ n w, c.waiters n = some w → w.due < c.now → w.state = .cancelled ∨ c.WokenOnce n w.due

/-- After an advance, every sleeper due by then was woken once, unless it was cancelled. -/
def Advanced (c : FixtureClock) (ts : ℚ) (script : List (List TaskOp)) : Prop :=
  c.now ≤ ts → (c.advanceTo ts script).now = ts ∧
    ∀ n w, (c.advanceTo ts script).waiters n = some w → w.due ≤ ts →
      w.state = .cancelled ∨ (c.advanceTo ts script).WokenOnce n w.due

lemma Inv.wokenOnce (h : c.Inv) {n : ℕ} {w : Waiter} (hw : c.waiters n = some w)
    (hp : w.state ≠ .pending) : w.state = .cancelled ∨ c.WokenOnce n w.due := by
  rcases hs : w.state with _ | _ | _
  · exact absurd hs hp
  · obtain ⟨f, hf, hseq, hfw⟩ := h.woken n w hw hs
    have hdue : f.due = w.due := by
      have := h.woke f hf hfw
      rw [hseq, hw] at this
      exact (congrArg Waiter.due (Option.some.inj this)).symm
    refine .inr ⟨f, ⟨hf, hseq, hfw, hdue, (h.onTime f hf).1.trans hdue⟩, ?_⟩
    rintro g ⟨hg, hgseq, -⟩
    exact List.inj_on_of_nodup_map h.once hg hf (hgseq.trans hseq.symm)
  · exact .inl rfl

/-- **The virtual clock fires timers correctly**, in every run of sleeps, cancellations, timeouts
and advances, whatever the tasks do during an advance; and its time never goes backwards. -/
theorem fires_correctly (start : ℚ) (as : List ClockAction) :
    (Runs.after step { now := start } as).Correct ∧
      (∀ a, (Runs.after step { now := start } as).now ≤
        ((Runs.after step { now := start } as).step a).now) ∧
      ∀ ts script, (Runs.after step { now := start } as).Advanced ts script := by
  have h : (Runs.after step { now := start } as).Inv :=
    Runs.invariant (I := Inv) (fun c a h => (h.step a).1) (inv_start start) as
  refine ⟨⟨h.order, h.once, fun f hf => (h.onTime f hf).1, h.woke, fun n w hw hlt => ?_⟩,
    fun a => (h.step a).2, fun ts script hts => ?_⟩
  · refine h.wokenOnce hw fun hp => ?_
    obtain ⟨t, ht, -, -, hdue⟩ := h.waiting n w hw hp
    exact absurd (h.ahead t ht) (not_le.mpr (hdue ▸ hlt))
  · obtain ⟨hinv, hnow, hleft⟩ := h.advanceTo hts script
    refine ⟨hnow, fun n w hw hle => hinv.wokenOnce hw fun hp => ?_⟩
    obtain ⟨t, ht, -, -, hdue⟩ := hinv.waiting n w hw hp
    exact absurd (hleft t ht) (not_lt.mpr (hdue ▸ hle))

/-- A sleep the script starts after the first firing, as no task of an advance could, goes between
the two others. -/
example : ((advanceTo (({ now := 0 } : FixtureClock).sleep 5 |>.sleep 2) 9
    [[.sleep 1]]).firings.map fun f => (f.seq, f.reading, f.woke)) =
      [(1, 2, true), (2, 3, true), (0, 5, true)] := by
  decide +kernel

end FixtureClock

end PumpGrok
