import PumpGrok.Lib.TokenBucket

/-!
The rate limiter: a token bucket whose callers wait behind a lock that serves them in the order
they came. Only the holder of the lock reads the bucket; it sleeps until a token is there.
-/

namespace PumpGrok

/-- A bucket and the callers of `acquire`, the holder of the lock first. Times are in seconds. -/
structure RateLimiter where
  rate : ℚ
  capacity : ℚ
  tokens : ℚ
  updated : ℚ
  queue : List ℕ := []
  /-- When the sleep of the holder ends, if it sleeps. -/
  wakeAt : Option ℚ := none

namespace RateLimiter

def create (perMinute : ℚ) (burst : Option ℚ) (now : ℚ) : RateLimiter :=
  let capacity := burst.getD (max 1 (perMinute / 6))
  { rate := max (1 / 1000) perMinute / 60
    capacity := capacity
    tokens := capacity
    updated := now }

def refill (l : RateLimiter) (now : ℚ) : RateLimiter :=
  { l with tokens := refilled l.rate l.capacity l.tokens l.updated now, updated := now }

def delayForNext (l : RateLimiter) (now : ℚ) : ℚ × RateLimiter :=
  let l := l.refill now
  (if 1 ≤ l.tokens then 0 else (1 - l.tokens) / l.rate, l)

/-- One turn of the holder's loop: it takes a token and gives the lock back, or it sleeps. -/
def turn (l : RateLimiter) (now : ℚ) : Option ℕ × RateLimiter :=
  match l.queue with
  | [] => (none, l)
  | i :: rest =>
    let (delay, l) := l.delayForNext now
    if delay ≤ 0 then (some i, { l with tokens := l.tokens - 1, queue := rest, wakeAt := none })
    else (none, { l with wakeAt := some (now + delay) })

/-- A caller takes the lock and its first turn, or waits for the lock. -/
def enter (l : RateLimiter) (now : ℚ) (i : ℕ) : Option ℕ × RateLimiter :=
  if l.queue = [] then turn { l with queue := [i] } now
  else (none, { l with queue := l.queue ++ [i] })

/-- A caller is cancelled in its wait. -/
def leave (l : RateLimiter) (i : ℕ) : RateLimiter :=
  { l with
    queue := l.queue.erase i
    wakeAt := if l.queue.head? = some i then none else l.wakeAt }

/-- The holder's sleep is over. -/
def Due (l : RateLimiter) (now : ℚ) : Prop := ∀ t ∈ l.wakeAt, t ≤ now

instance (l : RateLimiter) (now : ℚ) : Decidable (l.Due now) :=
  inferInstanceAs (Decidable (∀ t ∈ l.wakeAt, _))

/-! ### What a turn does -/

section Turn

variable (l : RateLimiter) (now : ℚ)

lemma turn_nil (h : l.queue = []) : l.turn now = (none, l) := by
  unfold turn
  rw [h]

lemma turn_granted {i : ℕ} {rest : List ℕ} (h : l.queue = i :: rest)
    (ht : 1 ≤ (l.refill now).tokens) :
    l.turn now = (some i, { l.refill now with
      tokens := (l.refill now).tokens - 1, queue := rest, wakeAt := none }) := by
  unfold turn delayForNext
  rw [h]
  simp only [ht, if_true, le_refl]

lemma turn_asleep {i : ℕ} {rest : List ℕ} (h : l.queue = i :: rest) (hr : 0 < l.rate)
    (ht : ¬ 1 ≤ (l.refill now).tokens) :
    l.turn now = (none, { l.refill now with
      wakeAt := some (now + (1 - (l.refill now).tokens) / l.rate) }) := by
  have hpos : ¬ (1 - (l.refill now).tokens) / l.rate ≤ 0 := by
    rw [not_le] at ht ⊢
    exact div_pos (sub_pos.mpr ht) hr
  have hrate : (l.refill now).rate = l.rate := rfl
  unfold turn delayForNext
  rw [h]
  simp only [ht, if_false, hrate, hpos]

end Turn

/-! ### The invariant -/

/-- The bucket of a limiter is metered, and its holder sleeps exactly until a token is there. -/
structure Sound (l : RateLimiter) (rate capacity now : ℚ) (grants : List ℚ) : Prop where
  rate_eq : l.rate = rate
  capacity_eq : l.capacity = capacity
  metered : Metered rate capacity l.tokens l.updated grants
  updated_le : l.updated ≤ now
  held : ∀ t ∈ l.wakeAt, l.queue ≠ [] ∧ l.updated + (1 - l.tokens) / rate = t

variable {l : RateLimiter} {rate capacity now : ℚ} {grants : List ℚ}

lemma sound_create (perMinute now : ℚ) :
    (create perMinute none now).Sound (max (1 / 1000) perMinute / 60)
      (max 1 (perMinute / 6)) now [] where
  rate_eq := rfl
  capacity_eq := rfl
  metered := Metered.start (by positivity) (by positivity) now
  updated_le := le_rfl
  held t ht := by cases ht

lemma Sound.later (h : l.Sound rate capacity now grants) {now' : ℚ} (hn : now ≤ now') :
    l.Sound rate capacity now' grants :=
  { h with updated_le := h.updated_le.trans hn }

lemma Sound.refill (h : l.Sound rate capacity now grants) (hr : 0 < rate) :
    Metered rate capacity (l.refill now).tokens now grants := by
  have hm := h.metered.refill hr.le h.updated_le
  unfold RateLimiter.refill
  rwa [h.rate_eq, h.capacity_eq]

/-- The queue moves up by the caller granted. -/
lemma turn_queue (l : RateLimiter) (now : ℚ) :
    (l.turn now).1.toList ++ (l.turn now).2.queue = l.queue := by
  unfold turn
  rcases h : l.queue with - | ⟨i, rest⟩
  · simpa using h
  · simp only
    split_ifs
    · rfl
    · exact h

lemma enter_queue (l : RateLimiter) (now : ℚ) (i : ℕ) :
    (l.enter now i).1.toList ++ (l.enter now i).2.queue = l.queue ++ [i] := by
  unfold enter
  split_ifs with h
  · rw [turn_queue, h, List.nil_append]
  · rfl

/-- **A turn** takes a token at its time, or none. -/
lemma Sound.turn (h : l.Sound rate capacity now grants) (hr : 0 < rate) :
    (l.turn now).2.Sound rate capacity now
      (grants ++ if (l.turn now).1.isSome then [now] else []) := by
  rcases hq : l.queue with - | ⟨i, rest⟩
  · rw [turn_nil l now hq]
    simpa using h
  · have hm := h.refill hr
    by_cases ht : 1 ≤ (l.refill now).tokens
    · rw [turn_granted l now hq ht]
      exact ⟨h.rate_eq, h.capacity_eq, hm.grant hr.le ht, le_rfl, fun t ht => by cases ht⟩
    · rw [turn_asleep l now hq (h.rate_eq ▸ hr) ht]
      rw [Option.isSome_none, if_neg Bool.false_ne_true, List.append_nil]
      refine ⟨h.rate_eq, h.capacity_eq, hm, le_rfl, fun t htw => ?_⟩
      obtain rfl := Option.some.inj htw
      refine ⟨?_, by rw [h.rate_eq]; rfl⟩
      show l.queue ≠ []
      rw [hq]
      exact List.cons_ne_nil _ _

lemma Sound.enter (h : l.Sound rate capacity now grants) (hr : 0 < rate) (i : ℕ) :
    (l.enter now i).2.Sound rate capacity now
      (grants ++ if (l.enter now i).1.isSome then [now] else []) := by
  unfold RateLimiter.enter
  by_cases hq : l.queue = []
  · rw [if_pos hq]
    have hi : Sound { l with queue := [i] } rate capacity now grants :=
      { h with held := fun t ht => ⟨List.cons_ne_nil _ _, (h.held t ht).2⟩ }
    exact hi.turn hr
  · rw [if_neg hq, Option.isSome_none, if_neg Bool.false_ne_true, List.append_nil]
    exact { h with held := fun t ht => ⟨by simp, (h.held t ht).2⟩ }

lemma Sound.leave (h : l.Sound rate capacity now grants) (i : ℕ) :
    (l.leave i).Sound rate capacity now grants := by
  refine { h with held := fun t ht => ?_ }
  unfold RateLimiter.leave at ht ⊢
  simp only at ht ⊢
  split_ifs at ht with hhead
  · cases ht
  · refine ⟨?_, (h.held t ht).2⟩
    obtain ⟨j, rest, hq⟩ := List.exists_cons_of_ne_nil (h.held t ht).1
    rw [hq] at hhead ⊢
    have hne : j ≠ i := by simpa using hhead
    rw [List.erase_cons_tail (by simpa using hne)]
    exact List.cons_ne_nil _ _

/-- **A holder whose sleep is over is granted**: no caller sleeps twice. -/
theorem Sound.due_granted (h : l.Sound rate capacity now grants) (hr : 0 < rate)
    (hc : 1 ≤ capacity) {t : ℚ} (ht : l.wakeAt = some t) (hn : t ≤ now) :
    (l.turn now).1 = l.queue.head? := by
  obtain ⟨hne, hdue⟩ := h.held t ht
  obtain ⟨i, rest, hq⟩ := List.exists_cons_of_ne_nil hne
  have hone : 1 ≤ (l.refill now).tokens := by
    unfold RateLimiter.refill
    rw [h.rate_eq, h.capacity_eq]
    exact one_le_refilled hr hc hdue hn
  rw [turn_granted l now hq hone, hq]
  rfl

end RateLimiter

end PumpGrok
