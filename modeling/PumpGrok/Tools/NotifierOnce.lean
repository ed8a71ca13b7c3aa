import PumpGrok.Tools.Notifier

/-!
Each alert reaches each sink once, while no two calls deliver one key to one sink at the same time.
What counts is the load of a sink under a key: the deliveries it accepted and those under way.
-/

namespace PumpGrok

namespace Notify

/-- A call under way to a sink with a key. -/
def SendCall.under (k : AlertKey) (d : Destination) (c : SendCall) : Bool :=
  c.key = k && c.delivering d

/-- An answer of the world outside, or a bound that passes: all but a call of `send`. -/
def Action.Answers : Action → Prop
  | .send _ _ _ => False
  | _ => True

namespace Outbox

/-- What must hold of every state, whatever the sinks answer. -/
structure Once (s : Outbox) : Prop where
  once : ∀ k d, s.sent.count (k, d) ≤ 1
  line : ∀ k, s.lines.countP (·.1 = k) ≤ 1
  allowed : (∀ d ∈ s.attempted, d ∈ s.notifier.allowlist) ∧
    ∀ x ∈ s.sent, x.2 ∈ s.notifier.allowlist
  /-- A suppressed call finds its line in the file and every sink it asked for served. -/
  suppressed : ∀ c ∈ s.calls, c.suppressed = true →
    (∃ line ∈ s.lines, line.1 = c.key) ∧ ∀ d ∈ c.requested, (c.key, d) ∈ s.sent
  /-- The next call tries again what has not succeeded. -/
  retried : ∀ m now file, ∃ c, (s.send m now file).calls = s.calls ++ [c] ∧ c.key = m.key now ∧
    (m.key now ∉ s.notifier.writtenKeys → c.fileRow ≠ none) ∧
    ∀ d ∈ s.requestedBy m, d ∈ s.notifier.allowlist → (m.key now, d) ∉ s.sent →
      c.delivering d = true

/-- A call keeps apart from the others: none is delivering, under its key, to a sink it has to
serve; it writes no line where a failed write left one; and with nothing left to serve it asks for
no sink outside the allowlist. -/
def Apart (s : Outbox) : Action → Prop
  | .send m now file =>
    (∀ c ∈ s.calls, c.key = m.key now → ∀ d ∈ s.pending m (m.key now), c.delivering d = false) ∧
      (s.filePending (m.key now) = true → file.leavesLine = true →
        ∀ line ∈ s.lines, line.1 ≠ m.key now) ∧
      (s.pending m (m.key now) = [] → s.filePending (m.key now) = false →
        ∀ d ∈ s.requestedBy m, d ∈ s.notifier.allowlist)
  | _ => True

/-- Deliveries to a sink under a key: accepted, and under way. -/
def load (s : Outbox) (k : AlertKey) (d : Destination) : ℕ :=
  s.sent.count (k, d) + s.calls.countP (SendCall.under k d)

/-- What the notifier has recorded, and where its deliveries go. -/
structure Sound (s : Outbox) : Prop where
  recorded : ∀ x, x ∈ s.notifier.delivered ↔ x ∈ s.sent
  written : ∀ k ∈ s.notifier.writtenKeys, ∃ line ∈ s.lines, line.1 = k
  delivers : ∀ c ∈ s.calls, ∀ d, c.deliveries.get d ≠ none → d ∈ s.notifier.allowlist
  allowed : (∀ d ∈ s.attempted, d ∈ s.notifier.allowlist) ∧
    ∀ x ∈ s.sent, x.2 ∈ s.notifier.allowlist

/-- No load above one, no second line, and no suppression too early. -/
structure Clean (s : Outbox) : Prop where
  load : ∀ k d, s.load k d ≤ 1
  line : ∀ k, s.lines.countP (·.1 = k) ≤ 1
  suppressed : ∀ c ∈ s.calls, c.suppressed = true →
    (∃ line ∈ s.lines, line.1 = c.key) ∧ ∀ d ∈ c.requested, (c.key, d) ∈ s.sent

/-! ### A new call -/

lemma get_startDeliveries (ds : List Destination) (d : Destination) :
    (startDeliveries ds).get d = if d ∈ ds then some (.waiting 0) else none := by
  have hfold : ∀ (ds : List Destination) (m : Dict Destination DeliveryState),
      (ds.foldl (fun m d => m.set d (.waiting 0)) m).get d =
        if d ∈ ds then some (.waiting 0) else m.get d := by
    intro ds
    induction ds with
    | nil => simp
    | cons e ds ih =>
      intro m
      rw [List.foldl_cons, ih, Dict.get_set]
      by_cases hds : d ∈ ds
      · simp [hds]
      · by_cases he : d = e <;> simp [hds, he]
  exact hfold ds ∅

variable {s : Outbox} {m : Alert} {now : ℤ} {file : FileWrite}

lemma mem_pending {k : AlertKey} {d : Destination} : d ∈ s.pending m k ↔
    d ∈ s.requestedBy m ∧ d ∈ s.notifier.allowlist ∧ (k, d) ∉ s.notifier.delivered := by
  simp only [pending, partitionDestinations, List.mem_filter, decide_eq_true_eq, and_assoc]

/-- What a write leaves. -/
structure Wrote (s : Outbox) (m : Alert) (k : AlertKey) (file : FileWrite)
    (r : Option (Option SinkError) × Outbox) : Prop where
  row : s.filePending k = true → r.1 ≠ none
  sent : r.2.sent = s.sent
  attempted : r.2.attempted = s.attempted
  delivered : r.2.notifier.delivered = s.notifier.delivered
  allowlist : r.2.notifier.allowlist = s.notifier.allowlist
  lines : r.2.lines =
    if s.filePending k = true ∧ file.leavesLine = true then s.lines ++ [(k, m)] else s.lines
  written : ∀ j ∈ r.2.notifier.writtenKeys, j ∈ s.notifier.writtenKeys ∨
    j = k ∧ s.filePending k = true ∧ file.leavesLine = true

lemma writeFile_wrote (s : Outbox) (m : Alert) (k : AlertKey) (file : FileWrite) :
    Wrote s m k file (s.writeFile m k file) := by
  unfold writeFile
  by_cases hp : s.filePending k = true
  · rw [if_pos hp]
    cases file with
    | written =>
      refine ⟨fun _ => by simp, rfl, rfl, rfl, rfl, by simp [hp, FileWrite.leavesLine],
        fun j hj => ?_⟩
      rcases Finset.mem_insert.mp hj with rfl | hj
      · exact .inr ⟨rfl, hp, rfl⟩
      · exact .inl hj
    | raised name leftLine =>
      refine ⟨fun _ => by simp, rfl, rfl, rfl, rfl, ?_, fun j hj => .inl hj⟩
      cases leftLine <;> simp [hp, FileWrite.leavesLine]
  · rw [if_neg hp]
    exact ⟨fun h => absurd h hp, rfl, rfl, rfl, rfl, by simp [hp], fun j hj => .inl hj⟩

/-- What a call of `send` does: nothing but be suppressed, or start the pending deliveries after
the write. -/
inductive Sent (s : Outbox) (m : Alert) (now : ℤ) (file : FileWrite) : Outbox → Prop
  | suppressed (hp : s.pending m (m.key now) = []) (hf : s.filePending (m.key now) = false) :
      Sent s m now file { s with calls := s.calls ++
        [{ key := m.key now, requested := s.requestedBy m, suppressed := true }] }
  | started (c : SendCall) (r : Option (Option SinkError) × Outbox)
      (hsome : s.pending m (m.key now) = [] → s.filePending (m.key now) = true)
      (hkey : c.key = m.key now) (hsup : c.suppressed = false) (hrow : c.fileRow = r.1)
      (hdel : ∀ d, c.delivering d = decide (d ∈ s.pending m (m.key now)))
      (hget : ∀ d, c.deliveries.get d ≠ none → d ∈ s.pending m (m.key now))
      (hw : Wrote s m (m.key now) file r) :
      Sent s m now file { r.2 with calls := s.calls ++ [c] }

lemma send_cases (s : Outbox) (m : Alert) (now : ℤ) (file : FileWrite) :
    Sent s m now file (s.send m now file) := by
  unfold send
  dsimp only
  split_ifs with h
  · exact .suppressed h.1 h.2
  · refine .started _ (s.writeFile m (m.key now) file)
      (fun hp => by_contra fun hf => h ⟨hp, by simpa using hf⟩) rfl rfl rfl (fun d => ?_)
      (fun d hd => ?_) (writeFile_wrote s m _ file)
    · simp only [SendCall.delivering, get_startDeliveries]
      split_ifs with hd <;> simp [hd, DeliveryState.isWaiting]
    · simp only [get_startDeliveries] at hd
      by_contra hnot
      exact hd (if_neg hnot)

/-! ### An answer -/

/-- What an answer changes of its call: no delivery is added, and none begins to wait. -/
structure Settles (c c' : SendCall) : Prop where
  key : c'.key = c.key
  requested : c'.requested = c.requested
  suppressed : c'.suppressed = c.suppressed
  delivers : ∀ d, c'.deliveries.get d ≠ none → c.deliveries.get d ≠ none
  delivering : ∀ d, c'.delivering d = true → c.delivering d = true

/-- What a step other than a call of `send` does. -/
inductive Turned (s : Outbox) : Outbox → Prop
  | kept : Turned s s
  | settled (i : ℕ) (c c' : SendCall) (ds : List Destination) (hi : s.calls[i]? = some c)
      (hc : Settles c c') (hds : ∀ d ∈ ds, c.deliveries.get d ≠ none) :
      Turned s { s with calls := s.calls.set i c', attempted := s.attempted ++ ds }
  | succeeded (i : ℕ) (c c' : SendCall) (d : Destination) (hi : s.calls[i]? = some c)
      (hc : Settles c c') (hbefore : c.delivering d = true) (hafter : c'.delivering d = false)
      (hother : ∀ e, e ≠ d → c'.delivering e = c.delivering e) :
      Turned s { s with
        calls := s.calls.set i c'
        attempted := s.attempted ++ [d]
        sent := s.sent ++ [(c.key, d)]
        notifier := { s.notifier with delivered := insert (c.key, d) s.notifier.delivered } }

lemma delivering_iff {c : SendCall} {d : Destination} : c.delivering d = true ↔
    c.cancelled = false ∧ ∃ failed, c.deliveries.get d = some (.waiting failed) := by
  simp only [SendCall.delivering, Bool.and_eq_true, Bool.not_eq_true', Option.any_eq_true]
  refine and_congr_right fun _ => ⟨?_, ?_⟩
  · rintro ⟨state, hget, hw⟩
    cases state with
    | waiting failed => exact ⟨failed, hget⟩
    | done e => cases hw
  · rintro ⟨failed, hget⟩
    exact ⟨_, hget, rfl⟩

lemma delivering_set (c : SendCall) (d e : Destination) (state : DeliveryState) :
    ({ c with deliveries := c.deliveries.set d state } : SendCall).delivering e =
      if e = d then !c.cancelled && state.isWaiting else c.delivering e := by
  simp only [SendCall.delivering, Dict.get_set]
  split_ifs <;> rfl

lemma settles_set {c : SendCall} {d : Destination} (hc : c.delivering d = true)
    (state : DeliveryState) :
    Settles c { c with deliveries := c.deliveries.set d state } := by
  obtain ⟨-, failed, hget⟩ := delivering_iff.mp hc
  refine ⟨rfl, rfl, rfl, fun e he => ?_, fun e he => ?_⟩
  · by_cases hed : e = d
    · rw [hed, hget]
      simp
    · rwa [Dict.get_set, if_neg hed] at he
  · rw [delivering_set] at he
    split_ifs at he with hed
    · rwa [hed]
    · exact he

lemma attempt_cases (s : Outbox) (i : ℕ) (d : Destination) (o : Attempt) :
    Turned s (s.attempt i d o) := by
  unfold attempt
  cases hi : s.calls[i]? with
  | none => exact .kept
  | some c =>
    dsimp only
    split
    · rename_i failed hcancelled hget
      have hc : c.delivering d = true := delivering_iff.mpr ⟨hcancelled, failed, hget⟩
      have hds : ∀ e ∈ [d], c.deliveries.get e ≠ none := by simp [hget]
      cases o with
      | returned =>
        refine .succeeded i c _ d hi (settles_set hc (.done none)) hc ?_ fun e he => ?_
        · simp [delivering_set, DeliveryState.isWaiting]
        · rw [delivering_set, if_neg he]
      | raised e retriable =>
        dsimp only
        split_ifs
        · exact .settled i c _ [d] hi (settles_set hc _) hds
        · exact .settled i c _ [d] hi (settles_set hc _) hds
    · exact .kept

lemma answer_cases (s : Outbox) {a : Action} (ha : a.Answers) : Turned s (s.step a) := by
  cases a with
  | send m now file => exact ha.elim
  | attempt i d o => exact attempt_cases s i d o
  | expire i d =>
    simp only [step, expire]
    cases hi : s.calls[i]? with
    | none => exact .kept
    | some c =>
      dsimp only
      split_ifs with hc
      · have h := Turned.settled i c _ [] hi (settles_set hc (.done (some .timedOut))) (by simp)
        simpa [settle] using h
      · exact .kept
  | cancel i =>
    simp only [step, cancel]
    cases hi : s.calls[i]? with
    | none => exact .kept
    | some c =>
      have hc : Settles c { c with cancelled := true } :=
        ⟨rfl, rfl, rfl, fun _ h => h, fun d h => by simp [SendCall.delivering] at h⟩
      simpa using Turned.settled i c _ [] hi hc (by simp)

/-! ### What every step keeps -/

lemma sound_start (allowlist : List Destination) : Sound (start allowlist) := by
  constructor <;> simp [start]

lemma Sound.turned {s s' : Outbox} (hs : Sound s) (h : Turned s s') : Sound s' := by
  -- a call of the list after an answer delivers where a call of the list before did
  have hset : ∀ {i : ℕ} {c c' : SendCall}, s.calls[i]? = some c → Settles c c' →
      ∀ x ∈ s.calls.set i c', ∀ d, x.deliveries.get d ≠ none → d ∈ s.notifier.allowlist := by
    intro i c c' hi hc x hx d hd
    rcases List.mem_or_eq_of_mem_set hx with hx | rfl
    · exact hs.delivers x hx d hd
    · exact hs.delivers c (List.mem_of_getElem? hi) d (hc.delivers d hd)
  cases h with
  | kept => exact hs
  | settled i c c' ds hi hc hds =>
    refine ⟨hs.recorded, hs.written, hset hi hc, fun d hd => ?_, hs.allowed.2⟩
    rcases List.mem_append.mp hd with hd | hd
    · exact hs.allowed.1 d hd
    · exact hs.delivers c (List.mem_of_getElem? hi) d (hds d hd)
  | succeeded i c c' d hi hc hbefore hafter hother =>
    obtain ⟨-, failed, hget⟩ := delivering_iff.mp hbefore
    have hd : d ∈ s.notifier.allowlist :=
      hs.delivers c (List.mem_of_getElem? hi) d (by simp [hget])
    refine ⟨fun x => ?_, hs.written, hset hi hc, fun e he => ?_, fun x hx => ?_⟩
    · rw [Finset.mem_insert, List.mem_append, List.mem_singleton, hs.recorded x, or_comm]
    · rcases List.mem_append.mp he with he | he
      · exact hs.allowed.1 e he
      · rwa [List.mem_singleton.mp he]
    · rcases List.mem_append.mp hx with hx | hx
      · exact hs.allowed.2 x hx
      · rwa [List.mem_singleton.mp hx]

lemma Sound.sent {s s' : Outbox} (hs : Sound s) (h : Sent s m now file s') : Sound s' := by
  cases h with
  | suppressed hp hf =>
    refine ⟨hs.recorded, hs.written, fun c hc d hd => ?_, hs.allowed⟩
    rcases List.mem_append.mp hc with hc | hc
    · exact hs.delivers c hc d hd
    · rw [List.mem_singleton.mp hc] at hd
      simp at hd
  | started c r hsome hkey hsup hrow hdel hget hw =>
    refine ⟨fun x => ?_, fun k hk => ?_, fun x hx d hd => ?_, ?_, ?_⟩
    · rw [hw.delivered, hw.sent]
      exact hs.recorded x
    · rw [hw.lines]
      rcases hw.written k hk with hk | ⟨rfl, hnew⟩
      · obtain ⟨line, hline, hlk⟩ := hs.written k hk
        refine ⟨line, ?_, hlk⟩
        split_ifs
        · exact List.mem_append_left _ hline
        · exact hline
      · rw [if_pos hnew]
        exact ⟨(m.key now, m), by simp, rfl⟩
    · rw [hw.allowlist]
      rcases List.mem_append.mp hx with hx | hx
      · exact hs.delivers x hx d hd
      · rw [List.mem_singleton.mp hx] at hd
        exact (mem_pending.mp (hget d hd)).2.1
    · rw [hw.attempted, hw.allowlist]
      exact hs.allowed.1
    · rw [hw.sent, hw.allowlist]
      exact hs.allowed.2

lemma Sound.step {s : Outbox} (hs : Sound s) (a : Action) : Sound (s.step a) := by
  cases a with
  | send m now file => exact hs.sent (send_cases s m now file)
  | attempt i d o => exact hs.turned (answer_cases s trivial)
  | expire i d => exact hs.turned (answer_cases s trivial)
  | cancel i => exact hs.turned (answer_cases s trivial)

/-! ### The load of a sink -/

lemma under_iff {c : SendCall} {k : AlertKey} {d : Destination} :
    c.under k d = true ↔ c.key = k ∧ c.delivering d = true := by
  simp [SendCall.under]

/-- An answer that ends no delivery to the sink and starts none leaves its count. -/
lemma countP_set_le {cs : List SendCall} {i : ℕ} {c c' : SendCall} (hi : cs[i]? = some c)
    (p : SendCall → Bool) (hp : p c' = true → p c = true) :
    (cs.set i c').countP p ≤ cs.countP p := by
  obtain ⟨hlt, hget⟩ := List.getElem?_eq_some_iff.mp hi
  have hpos : (if p cs[i] = true then 1 else 0) ≤ cs.countP p := by
    split_ifs with h
    · exact List.countP_pos_iff.mpr ⟨_, List.getElem_mem hlt, h⟩
    · exact Nat.zero_le _
  rw [List.countP_set hlt]
  rw [hget] at hpos ⊢
  by_cases h' : p c' = true
  · rw [if_pos (hp h')] at hpos ⊢
    rw [if_pos h']
    omega
  · rw [if_neg h']
    omega

lemma countP_set_ended {cs : List SendCall} {i : ℕ} {c c' : SendCall} (hi : cs[i]? = some c)
    {p : SendCall → Bool} (hp : p c = true) (hp' : p c' = false) :
    (cs.set i c').countP p + 1 = cs.countP p := by
  obtain ⟨hlt, hget⟩ := List.getElem?_eq_some_iff.mp hi
  have hpos : 0 < cs.countP p :=
    List.countP_pos_iff.mpr ⟨c, List.mem_of_getElem? hi, hp⟩
  rw [List.countP_set hlt, hget, if_pos hp, hp']
  simp only [Bool.false_eq_true, if_false]
  omega

lemma Settles.under {c c' : SendCall} (hc : Settles c c') {k : AlertKey} {d : Destination}
    (h : c'.under k d = true) : c.under k d = true := by
  obtain ⟨hk, hd⟩ := under_iff.mp h
  exact under_iff.mpr ⟨hc.key ▸ hk, hc.delivering d hd⟩

/-- No answer raises a load. -/
lemma load_turned {s s' : Outbox} (h : Turned s s') (k : AlertKey) (d : Destination) :
    s'.load k d ≤ s.load k d := by
  cases h with
  | kept => exact le_rfl
  | settled i c c' ds hi hc hds =>
    exact Nat.add_le_add_left (countP_set_le hi _ hc.under) _
  | succeeded i c c' e hi hc hbefore hafter hother =>
    simp only [load, List.count_append, List.count_singleton]
    by_cases he : (c.key, e) = (k, d)
    · obtain ⟨rfl, rfl⟩ := Prod.mk.inj he
      have hafter' : c'.under c.key e = false := by simp [SendCall.under, hafter]
      have hended := countP_set_ended hi (under_iff.mpr ⟨rfl, hbefore⟩) hafter'
      rw [beq_self_eq_true, if_pos rfl]
      omega
    · have hle := countP_set_le hi (SendCall.under k d) hc.under
      rw [if_neg (by simpa using he)]
      omega

/-! ### What the sinks may answer -/

lemma Clean.turned {s s' : Outbox} (hs : Clean s) (h : Turned s s') : Clean s' := by
  refine ⟨fun k d => le_trans (load_turned h k d) (hs.load k d), ?_, ?_⟩
  · cases h <;> exact hs.line
  · -- a call keeps its key and what it asked for
    have hset : ∀ {i : ℕ} {c c' : SendCall}, s.calls[i]? = some c → Settles c c' →
        ∀ x ∈ s.calls.set i c', x.suppressed = true → (∃ line ∈ s.lines, line.1 = x.key) ∧
          ∀ d ∈ x.requested, (x.key, d) ∈ s.sent := by
      intro i c c' hi hc x hx hsup
      rcases List.mem_or_eq_of_mem_set hx with hx | rfl
      · exact hs.suppressed x hx hsup
      · rw [hc.key, hc.requested]
        exact hs.suppressed c (List.mem_of_getElem? hi) (hc.suppressed ▸ hsup)
    cases h with
    | kept => exact hs.suppressed
    | settled i c c' ds hi hc hds => exact hset hi hc
    | succeeded i c c' d hi hc hbefore hafter hother =>
      intro x hx hsup
      obtain ⟨hline, hsent⟩ := hset hi hc x hx hsup
      exact ⟨hline, fun e he => List.mem_append_left _ (hsent e he)⟩

lemma Clean.once {s : Outbox} (hs : Clean s) (hsound : Sound s) : Once s where
  once k d := le_trans (Nat.le_add_right _ _) (hs.load k d)
  line := hs.line
  allowed := hsound.allowed
  suppressed := hs.suppressed
  retried m now file := by
    have h := send_cases s m now file
    generalize s.send m now file = s' at h
    cases h with
    | suppressed hp hf =>
      refine ⟨_, rfl, rfl, fun hk => ?_, fun d hd hallow hnot => ?_⟩
      · simp [filePending, hk] at hf
      · have hmem : d ∈ s.pending m (m.key now) :=
          mem_pending.mpr ⟨hd, hallow, fun h => hnot ((hsound.recorded _).mp h)⟩
        rw [hp] at hmem
        simp at hmem
    | started c r hsome hkey hsup hrow hdel hget hw =>
      refine ⟨c, rfl, hkey, fun hk => ?_, fun d hd hallow hnot => ?_⟩
      · rw [hrow]
        exact hw.row (by simp [filePending, hk])
      · rw [hdel, decide_eq_true_eq]
        exact mem_pending.mpr ⟨hd, hallow, fun h => hnot ((hsound.recorded _).mp h)⟩

/-- A delivery under way may be accepted: its load stays, and one less is under way. -/
lemma attempt_returned {s : Outbox} {i : ℕ} {c : SendCall} {d : Destination}
    (hi : s.calls[i]? = some c) (hc : c.delivering d = true) :
    (s.attempt i d .returned).sent = s.sent ++ [(c.key, d)] ∧
      (s.attempt i d .returned).calls.countP (SendCall.under c.key d) + 1 =
        s.calls.countP (SendCall.under c.key d) := by
  obtain ⟨hcancelled, failed, hget⟩ := delivering_iff.mp hc
  simp only [attempt, hi, hcancelled, hget, settle]
  refine ⟨trivial, countP_set_ended hi (under_iff.mpr ⟨rfl, hc⟩) ?_⟩
  simp [SendCall.under, SendCall.delivering, DeliveryState.isWaiting]

/-- The sinks may accept everything under way. -/
lemma exists_answers (s : Outbox) (k : AlertKey) (d : Destination) :
    ∃ cs : List Action, (∀ a ∈ cs, a.Answers) ∧
      (Runs.after step s cs).sent.count (k, d) = s.load k d := by
  induction hn : s.calls.countP (SendCall.under k d) generalizing s with
  | zero => exact ⟨[], by simp, by simp [load, hn]⟩
  | succ n ih =>
    have hpos : 0 < s.calls.countP (SendCall.under k d) := by omega
    obtain ⟨c, hmem, hunder⟩ := List.countP_pos_iff.mp hpos
    obtain ⟨hkey, hc⟩ := under_iff.mp hunder
    obtain ⟨i, hi⟩ := List.mem_iff_getElem?.mp hmem
    obtain ⟨hsent, hcount⟩ := attempt_returned hi hc
    rw [hkey] at hsent hcount
    obtain ⟨cs, hcs, hload⟩ := ih (s.attempt i d .returned) (by omega)
    refine ⟨.attempt i d .returned :: cs, ?_, ?_⟩
    · intro a ha
      rcases List.mem_cons.mp ha with rfl | ha
      · exact trivial
      · exact hcs a ha
    · have hstep : (s.attempt i d .returned).load k d = s.load k d := by
        simp only [load, hsent, List.count_append, List.count_singleton_self]
        omega
      exact hload.trans hstep

/-- A clean state is one that no answers spoil. -/
lemma clean_iff_answers {s : Outbox} (hs : Sound s) :
    (∀ cs : List Action, (∀ a ∈ cs, a.Answers) → Once (Runs.after step s cs)) ↔ Clean s := by
  constructor
  · intro h
    have hnow : Once s := h [] (by simp)
    refine ⟨fun k d => ?_, hnow.line, hnow.suppressed⟩
    obtain ⟨cs, hcs, hload⟩ := exists_answers s k d
    rw [← hload]
    exact (h cs hcs).once k d
  · intro hclean cs hcs
    induction cs generalizing s with
    | nil => exact hclean.once hs
    | cons a cs ih =>
      have hturned := answer_cases s (hcs a List.mem_cons_self)
      exact ih (hs.turned hturned) (hclean.turned hturned)
        fun b hb => hcs b (List.mem_cons_of_mem _ hb)

/-! ### A call that keeps apart -/

lemma load_sent {s' : Outbox} (h : Sent s m now file s') (k : AlertKey) (d : Destination) :
    s'.load k d = s.load k d +
      if k = m.key now ∧ d ∈ s.pending m (m.key now) then 1 else 0 := by
  cases h with
  | suppressed hp hf =>
    have hunder : SendCall.under k d
        { key := m.key now, requested := s.requestedBy m, suppressed := true } = false := by
      simp [SendCall.under, SendCall.delivering]
    simp [load, hp, hunder]
  | started c r hsome hkey hsup hrow hdel hget hw =>
    have hunder : c.under k d = decide (k = m.key now ∧ d ∈ s.pending m (m.key now)) := by
      rw [Bool.eq_iff_iff, under_iff, hkey, hdel, decide_eq_true_eq, decide_eq_true_eq, eq_comm]
    simp only [load, hw.sent, List.countP_append, List.countP_singleton, hunder,
      decide_eq_true_eq, Nat.add_assoc]

/-- A sink still to be served has been served once for every delivery under way, and no more. -/
lemma load_pending (hs : Sound s) {d : Destination} (hd : d ∈ s.pending m (m.key now)) :
    s.load (m.key now) d = s.calls.countP (SendCall.under (m.key now) d) := by
  have hnot : (m.key now, d) ∉ s.sent := fun h =>
    (mem_pending.mp hd).2.2 ((hs.recorded _).mpr h)
  rw [load, List.count_eq_zero.mpr hnot, Nat.zero_add]

lemma lines_sent {s' : Outbox} (h : Sent s m now file s') :
    s'.lines = s.lines ∧ (s.filePending (m.key now) = false ∨ file.leavesLine = false) ∨
      s'.lines = s.lines ++ [(m.key now, m)] ∧
        s.filePending (m.key now) = true ∧ file.leavesLine = true := by
  cases h with
  | suppressed hp hf => exact .inl ⟨rfl, .inl hf⟩
  | started c r hsome hkey hsup hrow hdel hget hw =>
    have hlines := hw.lines
    split_ifs at hlines with hnew
    · exact .inr ⟨hlines, hnew⟩
    · refine .inl ⟨hlines, ?_⟩
      rcases not_and_or.mp hnew with h | h
      · exact .inl (by simpa using h)
      · exact .inr (by simpa using h)

/-- **One step.** A clean state stays clean exactly when the step keeps apart. -/
lemma clean_sent (hs : Sound s) (hclean : Clean s) {s' : Outbox} (h : Sent s m now file s') :
    Clean s' ↔ Apart s (.send m now file) := by
  have hload := load_sent h
  constructor
  · intro hc
    refine ⟨fun c hmem hkey d hd => ?_, fun hf hl line hline hk => ?_, fun hp hf d hd => ?_⟩
    · by_contra hdel
      have hpos : 0 < s.calls.countP (SendCall.under (m.key now) d) :=
        List.countP_pos_iff.mpr ⟨c, hmem, under_iff.mpr ⟨hkey, by simpa using hdel⟩⟩
      have hle := hc.load (m.key now) d
      rw [hload, if_pos ⟨rfl, hd⟩, load_pending hs hd] at hle
      omega
    · rcases lines_sent h with ⟨-, h' | h'⟩ | ⟨hlines, -⟩
      · rw [hf] at h'
        cases h'
      · rw [hl] at h'
        cases h'
      · have hle := hc.line (m.key now)
        have hpos : 0 < s.lines.countP (·.1 = m.key now) :=
          List.countP_pos_iff.mpr ⟨line, hline, by simpa using hk⟩
        rw [hlines, List.countP_append, List.countP_singleton] at hle
        simp only [decide_true, if_true] at hle
        omega
    · cases h with
      | suppressed _ _ =>
        have hnew := hc.suppressed
          { key := m.key now, requested := s.requestedBy m, suppressed := true }
          (List.mem_append_right _ List.mem_cons_self) rfl
        exact hs.allowed.2 _ (hnew.2 d hd)
      | started c r hsome hkey hsup hrow hdel hget hw =>
        rw [hsome hp] at hf
        cases hf
  · rintro ⟨hapart, hnoline, hallowed⟩
    refine ⟨fun k d => ?_, fun k => ?_, ?_⟩
    · rw [hload]
      split_ifs with hd
      · obtain ⟨rfl, hd⟩ := hd
        have hzero : s.calls.countP (SendCall.under (m.key now) d) = 0 := by
          refine List.countP_eq_zero.mpr fun c hmem hunder => ?_
          obtain ⟨hkey, hdel⟩ := under_iff.mp hunder
          rw [hapart c hmem hkey d hd] at hdel
          cases hdel
        rw [load_pending hs hd, hzero]
      · exact hclean.load k d
    · rcases lines_sent h with ⟨hlines, -⟩ | ⟨hlines, hf, hl⟩
      · rw [hlines]
        exact hclean.line k
      · rw [hlines, List.countP_append, List.countP_singleton]
        by_cases hk : k = m.key now
        · have hzero : s.lines.countP (·.1 = k) = 0 :=
            List.countP_eq_zero.mpr fun line hline h =>
              hnoline hf hl line hline (by simpa [hk] using h)
          rw [hzero]
          split_ifs <;> omega
        · rw [if_neg (by simpa using fun h => hk h.symm)]
          exact hclean.line k
    · cases h with
      | suppressed hp hf =>
        intro c hmem hsup
        rcases List.mem_append.mp hmem with hmem | hmem
        · exact hclean.suppressed c hmem hsup
        · rw [List.mem_singleton.mp hmem]
          refine ⟨hs.written _ (by simpa [filePending] using hf), fun d hd => ?_⟩
          by_contra hnot
          have hpend : d ∈ s.pending m (m.key now) :=
            mem_pending.mpr ⟨hd, hallowed hp hf d hd, fun h => hnot ((hs.recorded _).mp h)⟩
          rw [hp] at hpend
          simp at hpend
      | started c r hsome hkey hsup hrow hdel hget hw =>
        intro x hmem hx
        rcases List.mem_append.mp hmem with hmem | hmem
        · obtain ⟨⟨line, hline, hlk⟩, hsent⟩ := hclean.suppressed x hmem hx
          refine ⟨⟨line, ?_, hlk⟩, fun d hd => hw.sent ▸ hsent d hd⟩
          rw [hw.lines]
          split_ifs
          · exact List.mem_append_left _ hline
          · exact hline
        · rw [List.mem_singleton.mp hmem, hsup] at hx
          cases hx

lemma clean_step (hs : Sound s) (hclean : Clean s) (a : Action) :
    Clean (s.step a) ↔ Apart s a := by
  cases a with
  | send m now file => exact clean_sent hs hclean (send_cases s m now file)
  | attempt i d o => exact ⟨fun _ => trivial, fun _ => hclean.turned (answer_cases s trivial)⟩
  | expire i d => exact ⟨fun _ => trivial, fun _ => hclean.turned (answer_cases s trivial)⟩
  | cancel i => exact ⟨fun _ => trivial, fun _ => hclean.turned (answer_cases s trivial)⟩

/-- **Each alert reaches each sink once, exactly while its calls keep apart.** Of a run from a
fresh notifier, every state has what it should whatever the sinks go on to answer, exactly when
every call of it kept apart from those before. -/
theorem once_iff_apart (allowlist : List Destination) (as : List Action) :
    (∀ bs, bs <+: as → ∀ cs : List Action, (∀ a ∈ cs, a.Answers) →
      Once (Runs.after step (Runs.after step (start allowlist) bs) cs)) ↔
      Runs.Along step Apart (start allowlist) as := by
  have hsound : ∀ bs, Sound (Runs.after step (start allowlist) bs) :=
    Runs.invariant (fun s a hs => hs.step a) (sound_start allowlist)
  have hstart : Clean (start allowlist) := by
    constructor <;> simp [start, load]
  have hruns := Runs.always_iff_along (J := Sound) (P := Clean) (C := Apart)
    (fun s a hs => hs.step a) (fun s a hs hclean => clean_step hs hclean a)
    (sound_start allowlist) hstart as
  rw [← hruns]
  exact forall₂_congr fun bs _ => clean_iff_answers (hsound bs)

/-- The relay and a seat send the same alert: the second call starts while the first one's delivery
is under way, and both are accepted. -/
theorem overlapping_sent_twice :
    let m : Alert :=
      { severity := "warning".toList, kind := "trip".toList, text := "t".toList,
        idempotencyKey := some "k".toList }
    (Runs.after step (start ["hook".toList])
      [.send m 0 .written, .send m 0 .written, .attempt 0 "hook".toList .returned,
        .attempt 1 "hook".toList .returned]).sent =
      [(.given "k".toList, "hook".toList), (.given "k".toList, "hook".toList)] := by
  decide +kernel

end Outbox

end Notify

end PumpGrok
