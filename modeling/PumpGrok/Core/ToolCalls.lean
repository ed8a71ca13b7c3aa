import PumpGrok.Core.Registry
import PumpGrok.Lib.Runs

/-!
Calls of granted tools. A call is checked against the limits when its tool needs an approval, then
waits for its limiter, runs, and runs again after a timeout while its policy allows; calls of any
seats wait and run side by side. The number of times each tool runs is bounded by the policy of
each call and by the limiter of its key.
-/

namespace PumpGrok

inductive CallState where
  | checking
  | acquiring (attempt : ℕ)
  | running (attempt : ℕ)
  | resting (attempt : ℕ)
  | finished (outcome : Except ToolError Unit)

structure GuardedCall where
  bot : BotManifest
  spec : ToolSpec
  /-- The limits check has passed. -/
  approved : Bool := false
  state : CallState

/-- A run of the tool itself. -/
structure Execution where
  call : ℕ
  key : Text
  at_ : ℚ

/-- The registry in use. `executions` and `arrivals` record the runs of tools and the calls that
came to a limiter, in their order. -/
structure ToolDesk where
  now : ℚ
  registry : ToolRegistry := {}
  handles : List (BotManifest × ToolSpec) := []
  calls : List GuardedCall := []
  executions : List Execution := []
  arrivals : List (Text × ℕ) := []

namespace ToolDesk

inductive Verdict where
  | passed
  | refused
  | raised

inductive Action where
  | tick (t : ℚ)
  | register (spec : ToolSpec)
  | find (capability : Text) (maxSideEffect : SideEffect) (bot : BotManifest)
  | call (handle : ℕ)
  | checked (i : ℕ) (v : Verdict)
  | turn (key : Text)
  | ended (i : ℕ) (outcome : Except ToolError Unit)
  | rested (i : ℕ)
  | expired (i : ℕ) (x : ToolError)

def setCall (s : ToolDesk) (i : ℕ) (c : GuardedCall) : ToolDesk :=
  { s with calls := s.calls.set i c }

def setLimiter (s : ToolDesk) (key : Text) (l : RateLimiter) : ToolDesk :=
  { s with registry := { s.registry with limiters := s.registry.limiters.set key l } }

/-- The caller that a limiter has granted runs its tool. -/
def granted (s : ToolDesk) (who : Option ℕ) : ToolDesk :=
  match who with
  | none => s
  | some i =>
    match s.calls[i]? with
    | some ⟨bot, spec, approved, .acquiring n⟩ =>
      { s.setCall i ⟨bot, spec, approved, .running n⟩ with
        executions := s.executions ++ [⟨i, spec.rateLimitKey, s.now⟩] }
    | _ => s

/-- Call `i` comes to its limiter for an attempt. -/
def acquire (s : ToolDesk) (i : ℕ) (c : GuardedCall) (attempt : ℕ) : ToolDesk :=
  match s.registry.limiters.get c.spec.rateLimitKey with
  | none => s
  | some l =>
    ({ (s.setCall i { c with state := .acquiring attempt }).setLimiter c.spec.rateLimitKey
        (l.enter s.now i).2 with
      arrivals := s.arrivals ++ [(c.spec.rateLimitKey, i)] }).granted (l.enter s.now i).1

/-- The holder of a limiter's lock runs on, once its sleep is over. -/
def turn (s : ToolDesk) (key : Text) : ToolDesk :=
  match s.registry.limiters.get key with
  | none => s
  | some l =>
    if l.Due s.now then (s.setLimiter key (l.turn s.now).2).granted (l.turn s.now).1 else s

def startCall (s : ToolDesk) (bot : BotManifest) (spec : ToolSpec) : ToolDesk :=
  let c : GuardedCall := ⟨bot, spec, false, .checking⟩
  let s' := { s with calls := s.calls ++ [c] }
  if spec.requiresApproval then s' else s'.acquire s.calls.length c 1

def checked (s : ToolDesk) (i : ℕ) (v : Verdict) : ToolDesk :=
  match s.calls[i]? with
  | some ⟨bot, spec, approved, .checking⟩ =>
    match v with
    | .passed => s.acquire i ⟨bot, spec, true, .checking⟩ 1
    | .refused => s.setCall i ⟨bot, spec, approved, .finished (.error .refused)⟩
    | .raised => s.setCall i ⟨bot, spec, approved, .finished (.error .raised)⟩
  | _ => s

/-- The tool has returned or raised; a timeout of its own is tried again while attempts remain. -/
def ended (s : ToolDesk) (i : ℕ) (outcome : Except ToolError Unit) : ToolDesk :=
  match s.calls[i]? with
  | some ⟨bot, spec, approved, .running n⟩ =>
    match outcome with
    | .error .timeout =>
      if n < spec.attempts then s.setCall i ⟨bot, spec, approved, .resting n⟩
      else s.setCall i ⟨bot, spec, approved, .finished (.error .timeout)⟩
    | outcome => s.setCall i ⟨bot, spec, approved, .finished outcome⟩
  | _ => s

def rested (s : ToolDesk) (i : ℕ) : ToolDesk :=
  match s.calls[i]? with
  | some ⟨bot, spec, approved, .resting n⟩ => s.acquire i ⟨bot, spec, approved, .resting n⟩ (n + 1)
  | _ => s

/-- The call's own timeout, or a cancellation from outside. -/
def expired (s : ToolDesk) (i : ℕ) (x : ToolError) : ToolDesk :=
  match s.calls[i]? with
  | none => s
  | some ⟨_, _, _, .finished _⟩ => s
  | some ⟨bot, spec, approved, .acquiring _⟩ =>
    let s' := s.setCall i ⟨bot, spec, approved, .finished (.error x)⟩
    match s.registry.limiters.get spec.rateLimitKey with
    | none => s'
    | some l => s'.setLimiter spec.rateLimitKey (l.leave i)
  | some ⟨bot, spec, approved, _⟩ => s.setCall i ⟨bot, spec, approved, .finished (.error x)⟩

def step (s : ToolDesk) : Action → ToolDesk
  | .tick t => { s with now := max s.now t }
  | .register spec => { s with registry := (ToolRegistry.register spec s.registry).2 }
  | .find capability maxSideEffect bot =>
    match ToolRegistry.find s.now capability maxSideEffect bot s.registry with
    | (.ok spec, r) => { s with registry := r, handles := s.handles ++ [(bot, spec)] }
    | (.error _, r) => { s with registry := r }
  | .call handle =>
    match s.handles[handle]? with
    | none => s
    | some (bot, spec) => s.startCall bot spec
  | .checked i v => s.checked i v
  | .turn key => s.turn key
  | .ended i outcome => s.ended i outcome
  | .rested i => s.rested i
  | .expired i x => s.expired i x

end ToolDesk

/-! ### The invariant -/

namespace CallState

/-- Past the limits check, and not over. -/
def Started : CallState → Prop
  | acquiring _ | running _ | resting _ => True
  | checking | finished _ => False

/-- The runs a call has made fit its state and its policy. -/
def Within (runs attempts : ℕ) : CallState → Prop
  | checking => runs = 0
  | acquiring n => runs + 1 = n ∧ n ≤ attempts
  | running n => runs = n ∧ n ≤ attempts
  | resting n => runs = n ∧ n < attempts
  | finished _ => runs ≤ attempts

lemma Within.le {runs attempts : ℕ} {c : CallState} (h : c.Within runs attempts) :
    runs ≤ attempts := by
  cases c <;> simp only [Within] at h <;> omega

end CallState

namespace ToolDesk

variable {s : ToolDesk}

/-- How often a call has run its tool. -/
def runsOf (s : ToolDesk) (i : ℕ) : ℕ := s.executions.countP (·.call = i)

/-- When the tools of a key ran. -/
def grantsOf (s : ToolDesk) (key : Text) : List ℚ :=
  (s.executions.filter (·.key = key)).map (·.at_)

/-- The calls that ran under a key, in order. -/
def servedOf (s : ToolDesk) (key : Text) : List ℕ :=
  (s.executions.filter (·.key = key)).map (·.call)

def arrivalsOf (s : ToolDesk) (key : Text) : List ℕ :=
  (s.arrivals.filter (·.1 = key)).map (·.2)

/-- A call is as the registry granted it. -/
structure CallOk (s : ToolDesk) (i : ℕ) (c : GuardedCall) : Prop where
  holds : c.bot.Holds c.spec
  limited : s.registry.limiters.get c.spec.rateLimitKey ≠ none
  approved : c.state.Started → c.spec.requiresApproval = true → c.approved = true
  within : c.state.Within (s.runsOf i) c.spec.attempts

/-- A limiter is metered by the runs under its key, and serves the calls that wait for it in their
order. -/
structure LimiterOk (s : ToolDesk) (key : Text) (l : RateLimiter) : Prop where
  sound : l.Sound 1 10 s.now (s.grantsOf key)
  nodup : l.queue.Nodup
  queued : ∀ i ∈ l.queue, ∃ c n, s.calls[i]? = some c ∧ c.spec.rateLimitKey = key ∧
    c.state = .acquiring n
  ordered : (s.servedOf key ++ l.queue).Sublist (s.arrivalsOf key)

structure Sound (s : ToolDesk) : Prop where
  handles : ∀ x ∈ s.handles, x.1.Holds x.2 ∧ s.registry.limiters.get x.2.rateLimitKey ≠ none
  calls : ∀ i c, s.calls[i]? = some c → s.CallOk i c
  runs : ∀ x ∈ s.executions, ∃ c, s.calls[x.call]? = some c ∧ c.spec.rateLimitKey = x.key ∧
    (c.spec.requiresApproval = true → c.approved = true)
  limiters : ∀ key l, s.registry.limiters.get key = some l → s.LimiterOk key l

/-- Everything but the limiter of a key is as it should be. -/
structure Beside (s : ToolDesk) (key : Text) : Prop where
  handles : ∀ x ∈ s.handles, x.1.Holds x.2 ∧ s.registry.limiters.get x.2.rateLimitKey ≠ none
  calls : ∀ i c, s.calls[i]? = some c → s.CallOk i c
  runs : ∀ x ∈ s.executions, ∃ c, s.calls[x.call]? = some c ∧ c.spec.rateLimitKey = x.key ∧
    (c.spec.requiresApproval = true → c.approved = true)
  others : ∀ k l, k ≠ key → s.registry.limiters.get k = some l → s.LimiterOk k l

lemma Sound.beside (h : s.Sound) (key : Text) : s.Beside key :=
  ⟨h.handles, h.calls, h.runs, fun k l _ hl => h.limiters k l hl⟩

lemma limiter_kept {key k : Text} {l : RateLimiter} (h : s.registry.limiters.get k ≠ none) :
    (s.setLimiter key l).registry.limiters.get k ≠ none := by
  show (s.registry.limiters.set key l).get k ≠ none
  rw [Dict.get_set]
  split_ifs
  · exact Option.some_ne_none l
  · exact h

lemma getElem_setCall {i j : ℕ} {c : GuardedCall} :
    (s.setCall i c).calls[j]? = if i = j ∧ i < s.calls.length then some c else s.calls[j]? := by
  show (s.calls.set i c)[j]? = _
  rw [List.getElem?_set]
  by_cases hij : i = j
  · subst hij
    by_cases hlt : i < s.calls.length
    · simp [hlt]
    · simp [hlt]
  · simp [hij]

/-- A limiter put in place of another of its key, with no caller granted. -/
lemma Beside.setLimiter {key : Text} {l : RateLimiter} (h : s.Beside key) (hl : s.LimiterOk key l) :
    (s.setLimiter key l).Sound where
  handles x hx := ⟨(h.handles x hx).1, limiter_kept (h.handles x hx).2⟩
  calls i c hc := { h.calls i c hc with limited := limiter_kept (h.calls i c hc).limited }
  runs := h.runs
  limiters k l' hk := by
    have hk' : (s.registry.limiters.set key l).get k = some l' := hk
    by_cases hkey : k = key
    · subst hkey
      rw [Dict.get_set_self] at hk'
      obtain rfl := Option.some.inj hk'
      exact { hl with }
    · rw [Dict.get_set_ne _ _ hkey] at hk'
      exact { h.others k l' hkey hk' with }

/-- Call `i` has run its tool, with a limiter in place of that of its key. -/
structure Ran (key : Text) (l : RateLimiter) (i : ℕ) (c : GuardedCall) (s s' : ToolDesk) :
    Prop where
  now : s'.now = s.now
  handles : s'.handles = s.handles
  arrivals : s'.arrivals = s.arrivals
  limiters : s'.registry.limiters = s.registry.limiters.set key l
  calls : ∀ j, s'.calls[j]? = if i = j then some c else s.calls[j]?
  executions : s'.executions = s.executions ++ [⟨i, key, s.now⟩]

section Ran

variable {key : Text} {l : RateLimiter} {i : ℕ} {c : GuardedCall} {s' : ToolDesk}

lemma ran_granted {bot : BotManifest} {spec : ToolSpec} {approved : Bool} {n : ℕ}
    (hc : s.calls[i]? = some ⟨bot, spec, approved, .acquiring n⟩) (hkey : spec.rateLimitKey = key) :
    Ran key l i ⟨bot, spec, approved, .running n⟩ s ((s.setLimiter key l).granted (some i)) := by
  have hrun : (s.setLimiter key l).granted (some i) =
      { (s.setLimiter key l).setCall i ⟨bot, spec, approved, .running n⟩ with
        executions := s.executions ++ [⟨i, spec.rateLimitKey, s.now⟩] } := by
    have hc' : (s.setLimiter key l).calls[i]? = some ⟨bot, spec, approved, .acquiring n⟩ := hc
    simp only [ToolDesk.granted, hc']
    rfl
  have hlt : i < s.calls.length := (List.getElem?_eq_some_iff.mp hc).1
  rw [hrun]
  refine ⟨rfl, rfl, rfl, rfl, fun j => ?_, by rw [hkey]⟩
  have hset := @getElem_setCall (s.setLimiter key l) i j ⟨bot, spec, approved, .running n⟩
  have hlt' : i < (s.setLimiter key l).calls.length := hlt
  simp only [hlt', and_true] at hset
  exact hset

lemma Ran.kept (h : Ran key l i c s s') {k : Text} (hk : s.registry.limiters.get k ≠ none) :
    s'.registry.limiters.get k ≠ none := by
  rw [h.limiters]
  exact limiter_kept hk

lemma Ran.runsOf (h : Ran key l i c s s') (j : ℕ) :
    s'.runsOf j = s.runsOf j + if i = j then 1 else 0 := by
  unfold ToolDesk.runsOf
  rw [h.executions, List.countP_append, List.countP_singleton]
  simp

lemma Ran.grantsOf (h : Ran key l i c s s') (k : Text) :
    s'.grantsOf k = s.grantsOf k ++ if key = k then [s.now] else [] := by
  unfold ToolDesk.grantsOf
  rw [h.executions, List.filter_append, List.map_append]
  by_cases hk : key = k <;> simp [hk]

lemma Ran.servedOf (h : Ran key l i c s s') (k : Text) :
    s'.servedOf k = s.servedOf k ++ if key = k then [i] else [] := by
  unfold ToolDesk.servedOf
  rw [h.executions, List.filter_append, List.map_append]
  by_cases hk : key = k <;> simp [hk]

lemma Ran.arrivalsOf (h : Ran key l i c s s') (k : Text) : s'.arrivalsOf k = s.arrivalsOf k := by
  unfold ToolDesk.arrivalsOf
  rw [h.arrivals]

end Ran

/-- **A turn of a limiter**: the caller it grants runs its tool. -/
theorem Beside.granted {key : Text} {l : RateLimiter} {who : Option ℕ} {q : List ℕ}
    (h : s.Beside key) (hq : who.toList ++ l.queue = q) (hn : q.Nodup)
    (hw : ∀ i ∈ q, ∃ c n, s.calls[i]? = some c ∧ c.spec.rateLimitKey = key ∧
      c.state = .acquiring n)
    (ho : (s.servedOf key ++ q).Sublist (s.arrivalsOf key))
    (hs : l.Sound 1 10 s.now (s.grantsOf key ++ if who.isSome then [s.now] else [])) :
    ((s.setLimiter key l).granted who).Sound := by
  rcases who with - | i
  · rw [Option.isSome_none, if_neg Bool.false_ne_true, List.append_nil] at hs
    obtain rfl : l.queue = q := hq
    exact h.setLimiter ⟨hs, hn, hw, ho⟩
  obtain rfl : i :: l.queue = q := hq
  obtain ⟨⟨bot, spec, approved, state⟩, n, hc, hkey, hstate⟩ := hw i List.mem_cons_self
  obtain rfl : state = .acquiring n := hstate
  have hr := ran_granted (l := l) hc hkey
  have hok := h.calls i _ hc
  have happroved : spec.requiresApproval = true → approved = true := hok.approved trivial
  generalize (s.setLimiter key l).granted (some i) = s' at hr ⊢
  constructor
  · intro x hx
    rw [hr.handles] at hx
    exact ⟨(h.handles x hx).1, hr.kept (h.handles x hx).2⟩
  · intro j c hj
    rw [hr.calls] at hj
    by_cases hij : i = j
    · subst hij
      rw [if_pos rfl] at hj
      obtain rfl := Option.some.inj hj
      refine ⟨hok.holds, hr.kept hok.limited, fun _ => happroved, ?_⟩
      rw [hr.runsOf, if_pos rfl]
      exact hok.within
    · rw [if_neg hij] at hj
      have hjok := h.calls j c hj
      refine ⟨hjok.holds, hr.kept hjok.limited, hjok.approved, ?_⟩
      rw [hr.runsOf, if_neg hij]
      exact hjok.within
  · intro x hx
    rw [hr.executions] at hx
    rw [hr.calls]
    rcases List.mem_append.mp hx with hold | hnew
    · obtain ⟨c, hc', hk, ha⟩ := h.runs x hold
      by_cases hij : i = x.call
      · rw [← hij, hc] at hc'
        obtain rfl := Option.some.inj hc'
        exact ⟨_, if_pos hij, hk, happroved⟩
      · exact ⟨c, (if_neg hij).trans hc', hk, ha⟩
    · rw [List.mem_singleton.mp hnew]
      exact ⟨_, if_pos rfl, hkey, happroved⟩
  · intro k l' hk
    rw [hr.limiters] at hk
    by_cases hkk : k = key
    · subst hkk
      rw [Dict.get_set_self] at hk
      obtain rfl := Option.some.inj hk
      refine ⟨?_, (List.nodup_cons.mp hn).2, ?_, ?_⟩
      · rw [hr.now, hr.grantsOf, if_pos rfl]
        exact hs
      · intro j hj
        obtain ⟨c, m, hcj, hck, hcs⟩ := hw j (List.mem_cons_of_mem _ hj)
        have hij : i ≠ j := fun hij => (List.nodup_cons.mp hn).1 (hij ▸ hj)
        exact ⟨c, m, (hr.calls j).trans ((if_neg hij).trans hcj), hck, hcs⟩
      · rw [hr.servedOf, hr.arrivalsOf, if_pos rfl, List.append_assoc]
        exact ho
    · rw [Dict.get_set_ne _ _ hkk] at hk
      obtain ⟨hsound, hnodup, hqueued, hordered⟩ := h.others k l' hkk hk
      refine ⟨?_, hnodup, ?_, ?_⟩
      · rw [hr.now, hr.grantsOf, if_neg (Ne.symm hkk), List.append_nil]
        exact hsound
      · intro j hj
        obtain ⟨c, m, hcj, hck, hcs⟩ := hqueued j hj
        have hij : i ≠ j := by
          rintro rfl
          rw [hc] at hcj
          obtain rfl := Option.some.inj hcj
          exact hkk (hck.symm.trans hkey)
        exact ⟨c, m, (hr.calls j).trans ((if_neg hij).trans hcj), hck, hcs⟩
      · rw [hr.servedOf, hr.arrivalsOf, if_neg (Ne.symm hkk), List.append_nil]
        exact hordered

lemma Sound.turn (h : s.Sound) (key : Text) : (s.turn key).Sound := by
  unfold ToolDesk.turn
  split
  · exact h
  · rename_i l hl
    have hok := h.limiters key l hl
    split_ifs
    · exact (h.beside key).granted (l.turn_queue s.now) hok.nodup hok.queued hok.ordered
        (hok.sound.turn one_pos)
    · exact h

/-! ### Changes of one call -/

section Changes

variable {i : ℕ} {c c₀ : GuardedCall} {key : Text}

/-- A call past what it was, of the same tool. -/
structure Follows (s : ToolDesk) (i : ℕ) (c₀ c : GuardedCall) : Prop where
  at_ : s.calls[i]? = some c₀
  bot : c.bot = c₀.bot
  spec : c.spec = c₀.spec
  approved : c₀.approved = true → c.approved = true
  started : c.state.Started → c.spec.requiresApproval = true → c.approved = true
  within : c.state.Within (s.runsOf i) c.spec.attempts

lemma Follows.calls (hf : Follows s i c₀ c) (j : ℕ) :
    (s.setCall i c).calls[j]? = if i = j then some c else s.calls[j]? := by
  rw [getElem_setCall]
  simp only [(List.getElem?_eq_some_iff.mp hf.at_).1, and_true]

/-- A call changed: the limiters of other keys are as they were. -/
lemma Sound.follow (h : s.Sound) (hf : Follows s i c₀ c) (hk : c.spec.rateLimitKey = key) :
    (s.setCall i c).Beside key where
  handles := h.handles
  calls j c' hj := by
    rw [hf.calls] at hj
    have hok := h.calls i c₀ hf.at_
    split_ifs at hj with hij
    · subst hij
      obtain rfl := Option.some.inj hj
      exact ⟨by rw [hf.bot, hf.spec]; exact hok.holds, by rw [hf.spec]; exact hok.limited,
        hf.started, hf.within⟩
    · exact { h.calls j c' hj with }
  runs x hx := by
    obtain ⟨c', hc', hkey, ha⟩ := h.runs x hx
    rw [hf.calls]
    by_cases hij : i = x.call
    · rw [← hij, hf.at_] at hc'
      obtain rfl := Option.some.inj hc'
      exact ⟨c, if_pos hij, by rw [hf.spec, hkey],
        fun hr => hf.approved (ha (by rwa [← hf.spec]))⟩
    · exact ⟨c', (if_neg hij).trans hc', hkey, ha⟩
  others k l hne hl := by
    obtain ⟨hsound, hnodup, hqueued, hordered⟩ := h.limiters k l hl
    refine ⟨hsound, hnodup, fun j hj => ?_, hordered⟩
    obtain ⟨c', n, hc', hck, hcs⟩ := hqueued j hj
    have hij : i ≠ j := by
      rintro rfl
      rw [hf.at_] at hc'
      obtain rfl := Option.some.inj hc'
      exact hne (by rw [← hck, ← hf.spec, hk])
    exact ⟨c', n, (hf.calls j).trans ((if_neg hij).trans hc'), hck, hcs⟩

lemma Beside.sound (h : s.Beside key)
    (hl : ∀ l, s.registry.limiters.get key = some l → s.LimiterOk key l) : s.Sound where
  handles := h.handles
  calls := h.calls
  runs := h.runs
  limiters k l hk := by
    by_cases hkey : k = key
    · subst hkey
      exact hl l hk
    · exact h.others k l hkey hk

/-- The calls that wait for a limiter wait still, but for the one that changed. -/
lemma LimiterOk.queued_follow {l : RateLimiter} (hl : s.LimiterOk key l) (hf : Follows s i c₀ c)
    {j : ℕ} (hj : j ∈ l.queue) (hij : i ≠ j) : ∃ c' n, (s.setCall i c).calls[j]? = some c' ∧
      c'.spec.rateLimitKey = key ∧ c'.state = .acquiring n := by
  obtain ⟨c', n, hc', hck, hcs⟩ := hl.queued j hj
  exact ⟨c', n, (hf.calls j).trans ((if_neg hij).trans hc'), hck, hcs⟩

lemma LimiterOk.not_queued {l : RateLimiter} (hl : s.LimiterOk key l) (hc : s.calls[i]? = some c₀)
    (hidle : ∀ n, c₀.state ≠ .acquiring n) {j : ℕ} (hj : j ∈ l.queue) : i ≠ j := by
  rintro rfl
  obtain ⟨c', n, hc', -, hcs⟩ := hl.queued i hj
  rw [hc] at hc'
  obtain rfl := Option.some.inj hc'
  exact hidle n hcs

/-- **A call that does not wait for its limiter changes**, and the limiter is as it was. -/
lemma Sound.setCall (h : s.Sound) (hf : Follows s i c₀ c) (hidle : ∀ n, c₀.state ≠ .acquiring n) :
    (s.setCall i c).Sound :=
  (h.follow hf rfl).sound fun l hl => by
    have hok := h.limiters _ l hl
    exact ⟨hok.sound, hok.nodup, fun j hj =>
      hok.queued_follow hf hj (hok.not_queued hf.at_ hidle hj), hok.ordered⟩

/-- **A call comes to its limiter.** -/
lemma Sound.acquire (h : s.Sound) {n : ℕ} (hf : Follows s i c₀ { c with state := .acquiring n })
    (hidle : ∀ n, c₀.state ≠ .acquiring n) : (s.acquire i c n).Sound := by
  unfold ToolDesk.acquire
  split
  · exact h
  · rename_i l hl
    have hok := h.limiters _ l hl
    have hb := h.follow hf rfl
    have hnot : i ∉ l.queue := fun hi => hok.not_queued hf.at_ hidle hi rfl
    have harrived : Beside { s.setCall i { c with state := .acquiring n } with
        arrivals := s.arrivals ++ [(c.spec.rateLimitKey, i)] } c.spec.rateLimitKey := by
      refine ⟨hb.handles, fun j c' hc' => { hb.calls j c' hc' with }, hb.runs,
        fun k l' hk hl' => ?_⟩
      have hok' := hb.others k l' hk hl'
      refine ⟨hok'.sound, hok'.nodup, hok'.queued, ?_⟩
      have hsame : arrivalsOf { s.setCall i { c with state := .acquiring n } with
          arrivals := s.arrivals ++ [(c.spec.rateLimitKey, i)] } k = s.arrivalsOf k := by
        simp [arrivalsOf, List.filter_append, Ne.symm hk]
      rw [hsame]
      exact hok'.ordered
    refine harrived.granted (l.enter_queue s.now i) ?_ ?_ ?_ (hok.sound.enter one_pos i)
    · exact List.nodup_append.mpr ⟨hok.nodup, List.nodup_singleton i, by
        rintro a ha b hb rfl
        rw [List.mem_singleton.mp hb] at ha
        exact hnot ha⟩
    · intro j hj
      rcases List.mem_append.mp hj with hj | hj
      · exact hok.queued_follow hf hj fun hij => hnot (hij ▸ hj)
      · rw [List.mem_singleton.mp hj]
        exact ⟨_, n, (hf.calls i).trans (if_pos rfl), rfl, rfl⟩
    · have harr : arrivalsOf { s.setCall i { c with state := .acquiring n } with
          arrivals := s.arrivals ++ [(c.spec.rateLimitKey, i)] } c.spec.rateLimitKey =
          s.arrivalsOf c.spec.rateLimitKey ++ [i] := by
        simp [arrivalsOf, List.filter_append]
      rw [harr, ← List.append_assoc]
      exact hok.ordered.append (List.Sublist.refl _)

end Changes

/-! ### One step -/

section Steps

variable {i : ℕ} {bot : BotManifest} {spec : ToolSpec} {approved : Bool} {st : CallState}

/-- The same call in another state. -/
lemma follows {st' : CallState} (h : s.Sound) (hc : s.calls[i]? = some ⟨bot, spec, approved, st⟩)
    (hs : st'.Started → st.Started) (hw : st'.Within (s.runsOf i) spec.attempts) :
    Follows s i ⟨bot, spec, approved, st⟩ ⟨bot, spec, approved, st'⟩ where
  at_ := hc
  bot := rfl
  spec := rfl
  approved := id
  started hst := (h.calls i _ hc).approved (hs hst)
  within := hw

/-- A call may end in any state. -/
lemma follows_finished (h : s.Sound) (hc : s.calls[i]? = some ⟨bot, spec, approved, st⟩)
    (outcome : Except ToolError Unit) :
    Follows s i ⟨bot, spec, approved, st⟩ ⟨bot, spec, approved, .finished outcome⟩ :=
  follows h hc False.elim (h.calls i _ hc).within.le

lemma Sound.checked (h : s.Sound) (i : ℕ) (v : Verdict) : (s.checked i v).Sound := by
  unfold ToolDesk.checked
  split
  · rename_i bot spec approved hc
    have hidle : ∀ n, CallState.checking ≠ .acquiring n := fun n hn => by cases hn
    cases v with
    | passed =>
      have hw : s.runsOf i = 0 := (h.calls i _ hc).within
      have hf : Follows s i ⟨bot, spec, approved, .checking⟩ ⟨bot, spec, true, .acquiring 1⟩ :=
        ⟨hc, rfl, rfl, fun _ => rfl, fun _ _ => rfl, by rw [hw], spec.attempts_ge⟩
      exact h.acquire hf hidle
    | refused => exact h.setCall (follows_finished h hc _) hidle
    | raised => exact h.setCall (follows_finished h hc _) hidle
  · exact h

lemma Sound.ended (h : s.Sound) (i : ℕ) (outcome : Except ToolError Unit) :
    (s.ended i outcome).Sound := by
  unfold ToolDesk.ended
  split
  · rename_i bot spec approved n hc
    have hidle : ∀ m, CallState.running n ≠ .acquiring m := fun m hm => by cases hm
    have hw : s.runsOf i = n ∧ n ≤ spec.attempts := (h.calls i _ hc).within
    split
    · split_ifs with hn
      · exact h.setCall (follows h hc (fun _ => trivial) ⟨hw.1, hn⟩) hidle
      · exact h.setCall (follows_finished h hc _) hidle
    · exact h.setCall (follows_finished h hc _) hidle
  · exact h

lemma Sound.rested (h : s.Sound) (i : ℕ) : (s.rested i).Sound := by
  unfold ToolDesk.rested
  split
  · rename_i bot spec approved n hc
    have hidle : ∀ m, CallState.resting n ≠ .acquiring m := fun m hm => by cases hm
    have hw : s.runsOf i = n ∧ n < spec.attempts := (h.calls i _ hc).within
    exact h.acquire (follows h hc (fun _ => trivial) ⟨by rw [hw.1], hw.2⟩) hidle
  · exact h

/-- A call leaves the limiter it waits for. -/
lemma Sound.left (h : s.Sound) {n : ℕ} {l : RateLimiter} (x : ToolError)
    (hc : s.calls[i]? = some ⟨bot, spec, approved, .acquiring n⟩)
    (hl : s.registry.limiters.get spec.rateLimitKey = some l) :
    ((s.setCall i ⟨bot, spec, approved, .finished (.error x)⟩).setLimiter spec.rateLimitKey
      (l.leave i)).Sound := by
  have hf := follows_finished h hc (.error x)
  have hok := h.limiters _ l hl
  refine (h.follow hf rfl).setLimiter ⟨hok.sound.leave i, hok.nodup.erase i, fun j hj => ?_, ?_⟩
  · have hj' := (hok.nodup.mem_erase_iff).mp hj
    exact hok.queued_follow hf hj'.2 (Ne.symm hj'.1)
  · exact ((List.Sublist.refl _).append List.erase_sublist).trans hok.ordered

lemma Sound.expired (h : s.Sound) (i : ℕ) (x : ToolError) : (s.expired i x).Sound := by
  unfold ToolDesk.expired
  split
  · exact h
  · exact h
  · rename_i bot spec approved n hc
    have hlim := (h.calls i _ hc).limited
    rcases hl : s.registry.limiters.get spec.rateLimitKey with - | l
    · exact absurd hl hlim
    · exact h.left x hc hl
  · rename_i bot spec approved st hfin hacq hc
    exact h.setCall (follows_finished h hc _) fun n hn => hacq n hn

/-- A call begins with no run made. -/
lemma Sound.begun (h : s.Sound) (hh : bot.Holds spec)
    (hl : s.registry.limiters.get spec.rateLimitKey ≠ none) :
    Sound { s with calls := s.calls ++ [⟨bot, spec, false, .checking⟩] } := by
  have hold : ∀ {j : ℕ} {c : GuardedCall}, s.calls[j]? = some c →
      (s.calls ++ [(⟨bot, spec, false, .checking⟩ : GuardedCall)])[j]? = some c := by
    intro j c hc
    rw [List.getElem?_append_left (List.getElem?_eq_some_iff.mp hc).1, hc]
  have hnone : s.runsOf s.calls.length = 0 := by
    unfold runsOf
    rw [List.countP_eq_zero]
    intro x hx
    obtain ⟨c, hc, -⟩ := h.runs x hx
    have hlt := (List.getElem?_eq_some_iff.mp hc).1
    simpa using hlt.ne
  refine ⟨h.handles, fun j c hj => ?_, fun x hx => ?_, fun k l hk => ?_⟩
  · rcases lt_trichotomy j s.calls.length with hlt | heq | hgt
    · have hj' : s.calls[j]? = some c := (List.getElem?_append_left hlt).symm.trans hj
      exact { h.calls j c hj' with }
    · subst heq
      have hc : some (⟨bot, spec, false, .checking⟩ : GuardedCall) = some c := by
        rw [← hj, List.getElem?_append_right le_rfl]
        simp
      obtain rfl := Option.some.inj hc
      exact ⟨hh, hl, False.elim, hnone⟩
    · have hnil : (s.calls ++ [(⟨bot, spec, false, .checking⟩ : GuardedCall)])[j]? = none :=
        List.getElem?_eq_none (by simp; omega)
      rw [hnil] at hj
      cases hj
  · obtain ⟨c, hc, hk⟩ := h.runs x hx
    exact ⟨c, hold hc, hk⟩
  · obtain ⟨hsound, hnodup, hqueued, hordered⟩ := h.limiters k l hk
    refine ⟨hsound, hnodup, fun j hj => ?_, hordered⟩
    obtain ⟨c, n, hc, hk⟩ := hqueued j hj
    exact ⟨c, n, hold hc, hk⟩

lemma Sound.startCall (h : s.Sound) (hh : bot.Holds spec)
    (hl : s.registry.limiters.get spec.rateLimitKey ≠ none) : (s.startCall bot spec).Sound := by
  have hb := h.begun hh hl
  unfold ToolDesk.startCall
  simp only
  split_ifs with ha
  · exact hb
  · have hc : (s.calls ++ [(⟨bot, spec, false, .checking⟩ : GuardedCall)])[s.calls.length]? =
        some ⟨bot, spec, false, .checking⟩ := by
      rw [List.getElem?_append_right le_rfl]
      simp
    have hw : runsOf { s with calls := s.calls ++ [⟨bot, spec, false, .checking⟩] }
        s.calls.length = 0 := (hb.calls _ _ hc).within
    refine hb.acquire ⟨hc, rfl, rfl, id, fun _ hr => absurd hr ha, ?_⟩ fun n hn => by cases hn
    exact ⟨by rw [hw], spec.attempts_ge⟩

end Steps

/-! ### The registry -/

lemma limiterFor_get (now : ℚ) (key k : Text) (r : ToolRegistry) :
    (r.limiterFor now key).limiters.get k =
      if k = key ∧ r.limiters.get key = none then
        some (.create ToolRegistry.defaultPerMinute none now)
      else r.limiters.get k := by
  unfold ToolRegistry.limiterFor
  rcases hk : r.limiters.get key with - | l
  · simp only [Dict.get_set, and_true]
  · simp

lemma sound_default (now : ℚ) :
    (RateLimiter.create ToolRegistry.defaultPerMinute none now).Sound 1 10 now [] := by
  have h := RateLimiter.sound_create ToolRegistry.defaultPerMinute now
  have hr : max (1 / 1000) ToolRegistry.defaultPerMinute / 60 = 1 := by
    norm_num [ToolRegistry.defaultPerMinute]
  have hc : max 1 (ToolRegistry.defaultPerMinute / 6) = 10 := by
    norm_num [ToolRegistry.defaultPerMinute]
  rwa [hr, hc] at h

/-- A limiter is made for a key that nothing has run under. -/
lemma Sound.limiterFor (h : s.Sound) (key : Text) :
    Sound { s with registry := s.registry.limiterFor s.now key } := by
  have hkept : ∀ {k : Text}, s.registry.limiters.get k ≠ none →
      (s.registry.limiterFor s.now key).limiters.get k ≠ none := by
    intro k hk
    rw [limiterFor_get]
    split_ifs
    · exact Option.some_ne_none _
    · exact hk
  refine ⟨fun x hx => ⟨(h.handles x hx).1, hkept (h.handles x hx).2⟩, fun j c hc => ?_, h.runs,
    fun k l hk => ?_⟩
  · have hok := h.calls j c hc
    exact ⟨hok.holds, hkept hok.limited, hok.approved, hok.within⟩
  · have hk' : (s.registry.limiterFor s.now key).limiters.get k = some l := hk
    rw [limiterFor_get] at hk'
    split_ifs at hk' with hnew
    · obtain ⟨rfl, hnone⟩ := hnew
      obtain rfl := Option.some.inj hk'
      have hfree : s.executions.filter (·.key = k) = [] := by
        rw [List.filter_eq_nil_iff]
        intro x hx hxk
        obtain ⟨c, hc, hck, -⟩ := h.runs x hx
        have hlim := (h.calls _ c hc).limited
        rw [hck, of_decide_eq_true hxk] at hlim
        exact hlim hnone
      refine ⟨?_, List.nodup_nil, fun j hj => (List.not_mem_nil hj).elim, ?_⟩
      · unfold grantsOf
        rw [hfree]
        exact sound_default s.now
      · unfold servedOf
        rw [hfree]
        exact List.nil_sublist _
    · exact { h.limiters k l hk' with }

/-- The tools and the audit rows are read by no call. -/
lemma Sound.registry (h : s.Sound) (r : ToolRegistry) (hr : r.limiters = s.registry.limiters) :
    Sound { s with registry := r } where
  handles x hx := ⟨(h.handles x hx).1, by
    show r.limiters.get _ ≠ none
    rw [hr]
    exact (h.handles x hx).2⟩
  calls i c hc := by
    have hok := h.calls i c hc
    refine ⟨hok.holds, ?_, hok.approved, hok.within⟩
    show r.limiters.get _ ≠ none
    rw [hr]
    exact hok.limited
  runs := h.runs
  limiters k l hk := by
    have hk' : r.limiters.get k = some l := hk
    rw [hr] at hk'
    exact { h.limiters k l hk' with }

/-- A tool handed out is one that its seat holds. -/
lemma Sound.handled (h : s.Sound) {bot : BotManifest} {spec : ToolSpec} (hh : bot.Holds spec)
    (hl : s.registry.limiters.get spec.rateLimitKey ≠ none) :
    Sound { s with handles := s.handles ++ [(bot, spec)] } where
  handles x hx := by
    rcases List.mem_append.mp hx with hx | hx
    · exact h.handles x hx
    · rw [List.mem_singleton.mp hx]
      exact ⟨hh, hl⟩
  calls i c hc := { h.calls i c hc with }
  runs := h.runs
  limiters k l hk := { h.limiters k l hk with }

lemma Sound.find (h : s.Sound) (capability : Text) (maxSideEffect : SideEffect)
    (bot : BotManifest) : (s.step (.find capability maxSideEffect bot)).Sound := by
  unfold step
  obtain ⟨x, row, hf, -⟩ | ⟨spec, row, hf, -, -, -, hholds, -⟩ :=
    find_run s.now capability maxSideEffect bot s.registry
  · simp only [hf]
    exact h.registry _ rfl
  · simp only [hf]
    refine ((h.registry (s.registry.audited row) rfl).limiterFor spec.rateLimitKey).handled
      hholds ?_
    show (ToolRegistry.limiterFor s.now _ _).limiters.get _ ≠ none
    rw [limiterFor_get]
    split_ifs with hn
    · exact Option.some_ne_none _
    · exact fun hnone => hn ⟨rfl, hnone⟩

/-- **One step** keeps the desk sound. -/
theorem Sound.step (h : s.Sound) (a : Action) : (s.step a).Sound := by
  cases a with
  | tick t =>
    refine ⟨h.handles, fun i c hc => { h.calls i c hc with }, h.runs, fun k l hk => ?_⟩
    have hok := h.limiters k l hk
    exact { hok with sound := hok.sound.later (le_max_left _ _) }
  | register spec =>
    refine h.registry _ ?_
    unfold ToolRegistry.register
    split_ifs <;> rfl
  | find capability maxSideEffect bot => exact h.find capability maxSideEffect bot
  | call handle =>
    unfold ToolDesk.step
    simp only
    split
    · exact h
    · rename_i bot spec hx
      obtain ⟨hh, hl⟩ := h.handles _ (List.mem_of_getElem? hx)
      exact h.startCall hh hl
  | checked i v => exact h.checked i v
  | turn key => exact h.turn key
  | ended i outcome => exact h.ended i outcome
  | rested i => exact h.rested i
  | expired i x => exact h.expired i x

/-- **Every run** of the desk is sound. -/
theorem sound_after (now : ℚ) (as : List Action) :
    (Runs.after step { now := now } as).Sound := by
  refine Runs.invariant (I := Sound) (fun s a h => h.step a) ?_ as
  constructor
  · intro x hx
    cases hx
  · intro i c hc
    cases hc
  · intro x hx
    cases hx
  · intro k l hk
    cases hk

/-! ### The audit -/

def Action.isFind : Action → Bool
  | .find _ _ _ => true
  | _ => false

/-- The granted rows of the audit are the tools handed out, in order. -/
def Audited (s : ToolDesk) : Prop :=
  (s.registry.audit.filter (·.allowed)).map (fun row => (row.bot, row.tool)) =
    s.handles.map fun x => (x.1.id, x.2.name)

lemma granted_frame (s : ToolDesk) (who : Option ℕ) :
    (s.granted who).registry = s.registry ∧ (s.granted who).handles = s.handles := by
  unfold granted
  split
  · exact ⟨rfl, rfl⟩
  · split <;> exact ⟨rfl, rfl⟩

lemma acquire_frame (s : ToolDesk) (i : ℕ) (c : GuardedCall) (n : ℕ) :
    (s.acquire i c n).registry.audit = s.registry.audit ∧
      (s.acquire i c n).handles = s.handles := by
  unfold acquire
  split
  · exact ⟨rfl, rfl⟩
  · rename_i l hl
    obtain ⟨hr, hh⟩ := granted_frame
      { (s.setCall i { c with state := .acquiring n }).setLimiter c.spec.rateLimitKey
          (l.enter s.now i).2 with
        arrivals := s.arrivals ++ [(c.spec.rateLimitKey, i)] } (l.enter s.now i).1
    rw [hr, hh]
    exact ⟨rfl, rfl⟩

/-- Only a lookup writes an audit row or hands out a tool. -/
lemma step_frame (s : ToolDesk) {a : Action} (h : a.isFind = false) :
    (s.step a).registry.audit = s.registry.audit ∧ (s.step a).handles = s.handles := by
  cases a with
  | tick t => exact ⟨rfl, rfl⟩
  | register spec =>
    refine ⟨?_, rfl⟩
    unfold step ToolRegistry.register
    simp only
    split_ifs <;> rfl
  | find capability maxSideEffect bot => cases h
  | call handle =>
    unfold step
    simp only
    split
    · exact ⟨rfl, rfl⟩
    · unfold startCall
      simp only
      split_ifs
      · exact ⟨rfl, rfl⟩
      · exact acquire_frame _ _ _ _
  | checked i v =>
    unfold step checked
    simp only
    split
    · cases v with
      | passed => exact acquire_frame _ _ _ _
      | refused => exact ⟨rfl, rfl⟩
      | raised => exact ⟨rfl, rfl⟩
    · exact ⟨rfl, rfl⟩
  | turn key =>
    unfold step turn
    simp only
    split
    · exact ⟨rfl, rfl⟩
    · split_ifs
      · rename_i l hl hdue
        obtain ⟨hr, hh⟩ := granted_frame (s.setLimiter key (l.turn s.now).2) (l.turn s.now).1
        rw [hr, hh]
        exact ⟨rfl, rfl⟩
      · exact ⟨rfl, rfl⟩
  | ended i outcome =>
    unfold step ended
    simp only
    split
    · split
      · split_ifs <;> exact ⟨rfl, rfl⟩
      · exact ⟨rfl, rfl⟩
    · exact ⟨rfl, rfl⟩
  | rested i =>
    unfold step rested
    simp only
    split
    · exact acquire_frame _ _ _ _
    · exact ⟨rfl, rfl⟩
  | expired i x =>
    unfold step expired
    simp only
    split <;> try exact ⟨rfl, rfl⟩
    split <;> exact ⟨rfl, rfl⟩

lemma limiterFor_audit (now : ℚ) (key : Text) (r : ToolRegistry) :
    (r.limiterFor now key).audit = r.audit := by
  unfold ToolRegistry.limiterFor
  split <;> rfl

/-- **A lookup** writes one audit row, and it tells what was handed out. -/
lemma find_audited (h : s.Audited) (capability : Text) (maxSideEffect : SideEffect)
    (bot : BotManifest) : (s.step (.find capability maxSideEffect bot)).Audited ∧
      (s.step (.find capability maxSideEffect bot)).registry.audit.length =
        s.registry.audit.length + 1 := by
  unfold step Audited at *
  obtain ⟨x, row, hf, hrow⟩ | ⟨spec, row, hf, hrow, hbot, htool, -⟩ :=
    find_run s.now capability maxSideEffect bot s.registry
  · simp only [hf, ToolRegistry.audited, List.filter_append, List.map_append, h]
    simp [hrow]
  · simp only [hf, limiterFor_audit, ToolRegistry.audited, List.filter_append, List.map_append, h]
    simp [hrow, hbot, htool]

theorem audited_after (now : ℚ) (as : List Action) :
    (Runs.after step { now := now } as).Audited ∧
      (Runs.after step { now := now } as).registry.audit.length = as.countP Action.isFind := by
  induction as using List.reverseRecOn with
  | nil => exact ⟨rfl, rfl⟩
  | append_singleton as a ih =>
    obtain ⟨haud, hlen⟩ := ih
    rw [Runs.after_snoc, List.countP_append, List.countP_singleton]
    rcases ha : a.isFind with - | -
    · obtain ⟨haudit, hhandles⟩ := step_frame (Runs.after step { now := now } as) ha
      unfold Audited at haud ⊢
      rw [haudit, hhandles]
      exact ⟨haud, by simpa using hlen⟩
    · cases a with
      | find capability maxSideEffect bot =>
        obtain ⟨haud', hlen'⟩ := find_audited haud capability maxSideEffect bot
        exact ⟨haud', by rw [hlen', hlen, if_pos rfl]⟩
      | _ => cases ha

/-! ### Least privilege -/

/-- Every run of a tool is one its seat may make, and every lookup is on the audit log. -/
structure LeastPrivilege (s : ToolDesk) (finds : ℕ) : Prop where
  runs : ∀ x ∈ s.executions, ∃ c, s.calls[x.call]? = some c ∧ c.bot.Holds c.spec ∧
    SeatMayRun c.bot.id c.bot.writesToExchange c.spec ∧
    (c.spec.requiresApproval = true → c.approved = true)
  attempts : ∀ i c, s.calls[i]? = some c → s.runsOf i ≤ c.spec.attempts ∧
    (c.spec.sideEffect ≠ .read → s.runsOf i ≤ 1)
  handed : (s.registry.audit.filter (·.allowed)).map (fun row => (row.bot, row.tool)) =
    s.handles.map fun x => (x.1.id, x.2.name)
  looked_up : s.registry.audit.length = finds

/-- **Least privilege.** In every run of lookups and calls by any seats, a tool runs only for a seat
that holds it, so never with a live write, `exec` writes only for the two seats that declare them
and the kill switch only for the risk seat; a tool that needs an approval runs only in a call whose
limits check has passed; a call runs a write once at most, and a read at most as often as its policy
has attempts; and the audit log has one row for each lookup, those granted being the tools handed
out, in order. -/
theorem least_privilege (now : ℚ) (as : List Action) :
    (Runs.after step { now := now } as).LeastPrivilege (as.countP Action.isFind) := by
  have h := sound_after now as
  obtain ⟨haud, hlen⟩ := audited_after now as
  refine ⟨fun x hx => ?_, fun i c hc => ?_, haud, hlen⟩
  · obtain ⟨c, hc, -, ha⟩ := h.runs x hx
    have hholds := (h.calls _ c hc).holds
    exact ⟨c, hc, hholds, hholds.mayRun, ha⟩
  · have hle := (h.calls i c hc).within.le
    refine ⟨hle, fun hw => ?_⟩
    have hone : ¬ 1 < c.spec.attempts := fun hlt => hw (c.spec.retry_read_only hlt)
    omega

/-- A paper write that needs an approval. -/
def samplePlace : ToolSpec where
  name := "exec.place".toList
  sideEffect := .paperWrite
  rateLimitKey := "exec".toList
  requiresApproval := true
  idempotent := true
  attempts_ge := le_refl 1
  attempts_le := by decide
  writes_idempotent := by simp
  reads_unapproved := by simp
  retry_read_only := by simp

def sampleSniper : BotManifest where
  id := "bot-04-sniper".toList
  allowedTools := [⟨"exec.place".toList, .paperWrite, by decide⟩]
  writesToExchange := true
  checked := by decide

def sampleScout : BotManifest where
  id := "bot-01-scout".toList
  allowedTools := [⟨"market.price".toList, .read, by decide⟩]
  checked := by decide

/-- Two seats look up one tool; the one that holds it calls it, and its limits check passes. -/
def sampleLookups : List Action :=
  [.register samplePlace, .find "exec.place".toList .paperWrite sampleSniper,
    .find "exec.place".toList .paperWrite sampleScout, .call 0, .checked 0 .passed]

def sampleDesk : ToolDesk := Runs.after step { now := 0 } sampleLookups

/-- The tool runs once, for the seat that holds it. -/
theorem least_privilege_sample :
    sampleDesk.executions.map (·.call) = [0] ∧
      sampleDesk.registry.audit.map (·.allowed) = [true, false] ∧ sampleDesk.LeastPrivilege 2 :=
  ⟨by decide +kernel, by decide +kernel, least_privilege 0 sampleLookups⟩

/-! ### The rate -/

/-- The tools of a key run at a bounded rate, in the order their calls came, and none waits once a
token is there. -/
structure RateLimited (s : ToolDesk) : Prop where
  window : ∀ key a b, a ≤ b →
    (s.executions.countP fun x => x.key = key ∧ a ≤ x.at_ ∧ x.at_ ≤ b : ℚ) ≤ 10 + (b - a)
  in_order : ∀ key, (s.servedOf key).Sublist (s.arrivalsOf key)
  prompt : ∀ key l t, s.registry.limiters.get key = some l → l.wakeAt = some t → t ≤ s.now →
    ∃ i, l.queue.head? = some i ∧ (s.turn key).executions = s.executions ++ [⟨i, key, s.now⟩]

lemma countP_grants (s : ToolDesk) (key : Text) (a b : ℚ) :
    s.executions.countP (fun x => x.key = key ∧ a ≤ x.at_ ∧ x.at_ ≤ b) =
      (s.grantsOf key).countP fun t => a ≤ t ∧ t ≤ b := by
  unfold grantsOf
  rw [List.countP_map, List.countP_filter]
  refine List.countP_congr fun x _ => ?_
  simp [and_comm]

/-- **The rate limit.** In every run, of any number of calls by any seats, the tools of a rate limit
key run at most ten times and once more for each second, in every window of time; they run in the
order their calls came to the limiter; and a call that sleeps for its token is run at its first turn
after the sleep. -/
theorem rate_limited (now : ℚ) (as : List Action) :
    (Runs.after step { now := now } as).RateLimited := by
  have h := sound_after now as
  generalize Runs.after step { now := now } as = s at h
  -- under a key with no limiter nothing has run
  have hnone : ∀ key, s.registry.limiters.get key = none →
      s.executions.filter (·.key = key) = [] := by
    intro key hkey
    rw [List.filter_eq_nil_iff]
    intro x hx hxk
    obtain ⟨c, hc, hck, -⟩ := h.runs x hx
    have hlim := (h.calls _ c hc).limited
    rw [hck, of_decide_eq_true hxk] at hlim
    exact hlim hkey
  refine ⟨fun key a b hab => ?_, fun key => ?_, fun key l t hl ht hn => ?_⟩
  · rw [countP_grants]
    rcases hl : s.registry.limiters.get key with - | l
    · unfold grantsOf
      rw [hnone key hl, List.map_nil, List.countP_nil, Nat.cast_zero]
      linarith
    · have hw := (h.limiters key l hl).sound.metered.windows a b hab
      rwa [one_mul] at hw
  · rcases hl : s.registry.limiters.get key with - | l
    · unfold servedOf
      rw [hnone key hl]
      exact List.nil_sublist _
    · exact (List.sublist_append_left _ _).trans (h.limiters key l hl).ordered
  · have hok := h.limiters key l hl
    have hgrant := hok.sound.due_granted one_pos (by norm_num) ht hn
    obtain ⟨i, rest, hq⟩ := List.exists_cons_of_ne_nil (hok.sound.held t ht).1
    have hhead : l.queue.head? = some i := by rw [hq]; rfl
    obtain ⟨⟨bot, spec, approved, st⟩, n, hc, hkey, hst⟩ := hok.queued i (by simp [hq])
    obtain rfl : st = .acquiring n := hst
    have hdue : l.Due s.now := fun t' ht' => by
      rw [ht] at ht'
      obtain rfl := Option.some.inj ht'
      exact hn
    refine ⟨i, hhead, ?_⟩
    unfold turn
    simp only [hl, hdue, if_true]
    rw [hgrant, hhead]
    exact (ran_granted hc hkey).executions

def samplePrice : ToolSpec where
  name := "market.price".toList
  sideEffect := .read
  attempts := 3
  rateLimitKey := "pumpfun_rest".toList
  attempts_ge := by decide
  attempts_le := by decide
  writes_idempotent := by simp
  reads_unapproved := by simp
  retry_read_only := by simp

/-- Eleven calls of one tool at once. -/
def sampleBurst : List Action :=
  [.register samplePrice, .find "market.price".toList .read sampleScout] ++
    List.replicate 11 (.call 0)

def sampleBursting : ToolDesk := Runs.after step { now := 0 } sampleBurst

/-- Ten of them run; the last one sleeps for a second, and runs at its turn then. -/
theorem rate_limited_sample :
    sampleBursting.RateLimited ∧ sampleBursting.executions.length = 10 ∧
      (Runs.after step sampleBursting [.tick 1, .turn "pumpfun_rest".toList]).executions.map (·.at_)
        = List.replicate 10 0 ++ [1] :=
  ⟨rate_limited 0 sampleBurst, by decide +kernel, by decide +kernel⟩

end ToolDesk

end PumpGrok
