import PumpGrok.Engine.Monitor
import PumpGrok.Lib.Runs

/-!
Runs of the monitor: what it promises of its buffer, and the runs it keeps the promise in. A
run also records when the buffered token of a mint was received.
-/

namespace PumpGrok

open Json (Value)
open CanonicalJson (text)

namespace LaunchMonitor

/-! ### The machine -/

/-- The monitor, the place and time of the event that each buffered token came with, and the
number of events so far. -/
structure World where
  monitor : Monitor
  received : Text → ℕ × ℚ
  events : ℕ

def World.init : World := ⟨.init, fun _ => (0, 0), 0⟩

inductive Action where
  | event (payload : List (Text × Value)) (now : ℚ)
  | sweep (now : ℚ)
  /-- buyer evidence, set on a buffered token from outside the socket -/
  | evidence (mint : Text) (buyers : ℕ)

section Machine

variable (conv : Conversions) (cfg : FilterSettings)

/-- The token of an event that is buffered. -/
def admitted (w : World) : Action → Option Token
  | .event payload now =>
    match parseCreateEvent conv payload now with
    | .ok (some t) => if isCreate payload ∧ t.mint ∉ w.monitor.emitted then some t else none
    | _ => none
  | _ => none

/-- The monitor after an action and what it told. An event that raises leaves it. -/
def act (w : World) : Action → Monitor × List Report
  | .event payload now =>
    match handleEvent conv w.monitor payload now with
    | .ok r => r
    | .error _ => (w.monitor, [])
  | .sweep now => sweep cfg w.monitor now
  | .evidence mint buyers =>
    match w.monitor.pending.get mint with
    | some t =>
      ({ w.monitor with pending := w.monitor.pending.set mint { t with uniqueBuyers := buyers } },
        [])
    | none => (w.monitor, [])

def timeOf : Action → ℚ
  | .event _ now => now
  | .sweep now => now
  | .evidence _ _ => 0

def step (w : World) (a : Action) : World where
  monitor := (act conv cfg w a).1
  received :=
    match admitted conv w a with
    | some t => Function.update w.received t.mint (w.events, timeOf a)
    | none => w.received
  events := w.events + 1

def reports (w : World) (a : Action) : List Report := (act conv cfg w a).2

/-- What is promised of one action. -/
structure Sound (w : World) (a : Action) : Prop where
  bounded : (step conv cfg w a).monitor.pending.entries.length ≤ maxPending
  /-- no mint is buffered and reported -/
  apart : ∀ mint, (step conv cfg w a).monitor.pending.get mint ≠ none →
    mint ∉ (step conv cfg w a).monitor.emitted
  /-- no mint is reported twice, nor again while it is remembered -/
  once : ((reports conv cfg w a).map Report.mint).Nodup ∧ ∀ r ∈ reports conv cfg w a,
    r.mint ∉ w.monitor.emitted ∧ r.mint ∈ (step conv cfg w a).monitor.emitted
  /-- a sweep reports what has been buffered for longer than the lifetime -/
  timely : ∀ now, a = .sweep now → ∀ mint t, w.monitor.pending.get mint = some t →
    pendingTtlSeconds < now - (w.received mint).2 → ∃ r ∈ reports conv cfg w a, r.mint = mint
  /-- what is dropped for overflow was received before all that is kept -/
  overflow : ∀ r ∈ reports conv cfg w a, r.reason = .bufferOverflow →
    ∀ mint, (step conv cfg w a).monitor.pending.get mint ≠ none →
      (w.received r.mint).1 < ((step conv cfg w a).received mint).1

/-- A verdict that may still change. -/
def Reason.Temporary (r : Reason) : Prop := r = .tooYoung ∨ r = .fewBuyers

instance (r : Reason) : Decidable r.Temporary := inferInstanceAs (Decidable (_ ∨ _))

/-- The least stamp of a full buffer is that of another mint than the event's, and of the token
received first. -/
def EvictsFirst (w : World) (t : Token) : Prop :=
  maxPending ≤ w.monitor.pending.entries.length → ∀ x rest, w.monitor.pending.entries = x :: rest →
    (oldestOf x rest).1 ≠ t.mint ∧
    ∀ mint, w.monitor.pending.get mint ≠ none → mint ≠ (oldestOf x rest).1 → mint ≠ t.mint →
      (w.received (oldestOf x rest).1).1 < (w.received mint).1

/-- In a sweep no token with a final verdict is stale by its stamp, and a token with a temporary
one that was received more than the lifetime ago is. -/
def StampsAgree (w : World) (now : ℚ) : Prop :=
  ∀ mint t, w.monitor.pending.get mint = some t →
    (t.stale now → (passesFilter cfg t now).Temporary ∨ passesFilter cfg t now = .ok) ∧
    (pendingTtlSeconds < now - (w.received mint).2 → (passesFilter cfg t now).Temporary →
      t.stale now)

/-- The condition on the state before an action. -/
def Trusted (w : World) (a : Action) : Prop :=
  match a with
  | .event _ _ => ∀ t, admitted conv w a = some t → EvictsFirst w t
  | .sweep now => StampsAgree cfg w now
  | .evidence _ _ => True

end Machine

/-! ### One token of a sweep -/

section Sweep

variable {cfg : FilterSettings} {now : ℚ}

/-- What a sweep tells of a token. -/
def told (cfg : FilterSettings) (now : ℚ) (t : Token) : List Report :=
  let reason := passesFilter cfg t now
  if reason = .ok then [⟨t, .ok⟩]
  else (if reason.Temporary then [] else [⟨t, reason⟩]) ++
    if t.stale now then [⟨t, .staleNoTraction⟩] else []

/-- A monitor whose tokens stand under their own mints. -/
def Keyed (m : Monitor) : Prop := ∀ mint t, m.pending.get mint = some t → t.mint = mint

lemma mint_of_mem_told {t : Token} {r : Report} (h : r ∈ told cfg now t) : r.mint = t.mint := by
  unfold told at h
  dsimp only at h
  split_ifs at h <;> simp at h <;> (rcases h with rfl | rfl) <;> rfl

/-- The monitor after some mints were reported. -/
def Monitor.decideAll (m : Monitor) (mints : List Text) : Monitor := mints.foldl Monitor.decide m

/-- **One token of a sweep** is told of, and decided as often as it is told of. -/
lemma sweepOne_eq {m : Monitor} {mint : Text} {t : Token} (h : m.pending.get mint = some t)
    (hk : t.mint = mint) :
    sweepOne cfg now m mint =
      (m.decideAll ((told cfg now t).map Report.mint), told cfg now t) := by
  subst hk
  unfold sweepOne told promote
  simp only [h]
  by_cases hok : passesFilter cfg t now = .ok
  · simp [hok, Monitor.decideAll, Report.mint]
  · by_cases htemp : (passesFilter cfg t now).Temporary
    · have htemp' :
          passesFilter cfg t now = .tooYoung ∨ passesFilter cfg t now = .fewBuyers := htemp
      cases t.stale now <;>
        simp [hok, htemp, htemp', Monitor.decideAll, Report.mint]
    · have htemp' : ¬ (passesFilter cfg t now = .tooYoung ∨ passesFilter cfg t now = .fewBuyers) :=
        htemp
      cases t.stale now <;>
        simp [hok, htemp, htemp', Monitor.decideAll, Report.mint]

lemma pending_decide (m : Monitor) (mint : Text) :
    (m.decide mint).pending = m.pending.erase mint := rfl

lemma emitted_decide (m : Monitor) (mint : Text) :
    (m.decide mint).emitted = m.emitted.add mint := rfl

lemma get_decideAll (m : Monitor) (mints : List Text) (mint : Text) :
    (m.decideAll mints).pending.get mint =
      if mint ∈ mints then none else m.pending.get mint := by
  induction mints generalizing m with
  | nil => simp [Monitor.decideAll]
  | cons k ks ih =>
    have h : m.decideAll (k :: ks) = (m.decide k).decideAll ks := rfl
    rw [h, ih, pending_decide, Dict.get_erase]
    rcases eq_or_ne mint k with rfl | hk
    · rw [if_pos rfl, ite_self, if_pos List.mem_cons_self]
    · rw [if_neg hk]
      simp only [List.mem_cons, hk, false_or]

lemma emitted_decideAll (m : Monitor) (mints : List Text) :
    (m.decideAll mints).emitted = m.emitted.addAll mints := by
  induction mints generalizing m with
  | nil => rfl
  | cons k ks ih =>
    have h : m.decideAll (k :: ks) = (m.decide k).decideAll ks := rfl
    rw [h, ih, emitted_decide, SeenSet.addAll_cons]

lemma length_decideAll_le (m : Monitor) (mints : List Text) :
    (m.decideAll mints).pending.entries.length ≤ m.pending.entries.length := by
  induction mints generalizing m with
  | nil => exact le_rfl
  | cons k ks ih => exact (ih (m.decide k)).trans (Dict.length_erase_le _ _)

lemma decideAll_append (m : Monitor) (ks ks' : List Text) :
    m.decideAll (ks ++ ks') = (m.decideAll ks).decideAll ks' :=
  List.foldl_append

lemma keyed_decideAll {m : Monitor} (h : Keyed m) (mints : List Text) :
    Keyed (m.decideAll mints) := by
  intro mint t ht
  rw [get_decideAll] at ht
  split_ifs at ht
  exact h mint t ht

/-- What a sweep tells of a mint. -/
def toldOf (cfg : FilterSettings) (now : ℚ) (m : Monitor) (mint : Text) : List Report :=
  match m.pending.get mint with
  | some t => told cfg now t
  | none => []

lemma toldOf_congr {m m' : Monitor} {mint : Text}
    (h : m.pending.get mint = m'.pending.get mint) :
    toldOf cfg now m mint = toldOf cfg now m' mint := by
  rw [toldOf, toldOf, h]

lemma mint_of_mem_toldOf {m : Monitor} (hk : Keyed m) {mint : Text} {r : Report}
    (h : r ∈ toldOf cfg now m mint) : r.mint = mint := by
  unfold toldOf at h
  rcases hg : m.pending.get mint with - | t
  · simp [hg] at h
  · rw [hg] at h
    exact (mint_of_mem_told h).trans (hk mint t hg)

/-- **A sweep** tells of its mints one after the other and decides those it told of. -/
lemma sweepAll_eq {m : Monitor} (hk : Keyed m) {mints : List Text} (hn : mints.Nodup) :
    sweepAll cfg now m mints =
      (m.decideAll ((mints.flatMap (toldOf cfg now m)).map Report.mint),
        mints.flatMap (toldOf cfg now m)) := by
  induction mints generalizing m with
  | nil => rfl
  | cons k ks ih =>
    obtain ⟨hkn, hks⟩ := List.nodup_cons.mp hn
    have hone : sweepOne cfg now m k =
        (m.decideAll ((toldOf cfg now m k).map Report.mint), toldOf cfg now m k) := by
      unfold toldOf
      rcases hg : m.pending.get k with - | t
      · simp [sweepOne, hg, Monitor.decideAll]
      · exact sweepOne_eq hg (hk k t hg)
    -- the mints after it are as they were
    have hrest : ks.flatMap (toldOf cfg now
        (m.decideAll ((toldOf cfg now m k).map Report.mint))) = ks.flatMap (toldOf cfg now m) := by
      refine List.flatMap_congr fun j hj => ?_
      have hne : j ∉ (toldOf cfg now m k).map Report.mint := by
        intro hmem
        obtain ⟨r, hr, hrj⟩ := List.mem_map.mp hmem
        rw [mint_of_mem_toldOf hk hr] at hrj
        exact hkn (hrj ▸ hj)
      exact toldOf_congr (by rw [get_decideAll, if_neg hne])
    rw [sweepAll, hone]
    simp only [ih (keyed_decideAll hk _) hks, hrest, List.flatMap_cons, List.map_append,
      decideAll_append]

lemma sweep_eq {m : Monitor} (hk : Keyed m) :
    sweep cfg m now = (m.decideAll ((m.pending.keys.flatMap (toldOf cfg now m)).map Report.mint),
      m.pending.keys.flatMap (toldOf cfg now m)) :=
  sweepAll_eq hk m.pending.nodup

lemma mem_sweep {m : Monitor} (hk : Keyed m) {r : Report} :
    r ∈ (sweep cfg m now).2 ↔ ∃ t, m.pending.get r.mint = some t ∧ r ∈ told cfg now t := by
  rw [sweep_eq hk, List.mem_flatMap]
  constructor
  · rintro ⟨mint, hmint, hr⟩
    obtain rfl := mint_of_mem_toldOf hk hr
    rcases hg : m.pending.get r.mint with - | t
    · simp [toldOf, hg] at hr
    · rw [toldOf, hg] at hr
      exact ⟨t, rfl, hr⟩
  · rintro ⟨t, ht, hr⟩
    refine ⟨r.mint, (m.pending.mem_keys_iff _).mpr (by simp [ht]), ?_⟩
    rw [toldOf, ht]
    exact hr

/-- A sweep tells of no mint twice exactly when it tells of no token twice. -/
lemma nodup_sweep_iff {m : Monitor} (hk : Keyed m) :
    ((sweep cfg m now).2.map Report.mint).Nodup ↔
      ∀ mint t, m.pending.get mint = some t → (told cfg now t).length ≤ 1 := by
  have hmap : (sweep cfg m now).2.map Report.mint =
      m.pending.keys.flatMap fun mint => (toldOf cfg now m mint).map Report.mint := by
    rw [sweep_eq hk, List.map_flatMap]
  -- all that is told of one mint carries that mint
  have hrep : ∀ mint, (toldOf cfg now m mint).map Report.mint =
      List.replicate (toldOf cfg now m mint).length mint := by
    intro mint
    refine List.eq_replicate_iff.mpr ⟨List.length_map _, fun x hx => ?_⟩
    obtain ⟨r, hr, rfl⟩ := List.mem_map.mp hx
    exact mint_of_mem_toldOf hk hr
  rw [hmap, List.nodup_flatMap]
  constructor
  · rintro ⟨hone, -⟩ mint t ht
    have h := hone mint ((m.pending.mem_keys_iff mint).mpr (by simp [ht]))
    rw [hrep, List.nodup_replicate, toldOf, ht] at h
    exact h
  · intro h
    refine ⟨fun mint _ => ?_, ?_⟩
    · rw [hrep, List.nodup_replicate]
      rcases hg : m.pending.get mint with - | t
      · simp [toldOf, hg]
      · rw [toldOf, hg]
        exact h mint t hg
    · refine List.Pairwise.imp (fun {a b} hab => ?_) m.pending.nodup
      rw [Function.onFun, hrep, hrep]
      intro x hx hx'
      exact hab ((List.eq_of_mem_replicate hx).symm.trans (List.eq_of_mem_replicate hx'))

lemma length_told_le_iff (t : Token) : (told cfg now t).length ≤ 1 ↔
    (t.stale now → (passesFilter cfg t now).Temporary ∨ passesFilter cfg t now = .ok) := by
  unfold told
  by_cases hok : passesFilter cfg t now = .ok
  · simp [hok]
  · by_cases htemp : (passesFilter cfg t now).Temporary
    · cases hs : t.stale now <;> simp [hok, htemp]
    · cases hs : t.stale now <;> simp [hok, htemp]

lemma told_ne_nil_iff (t : Token) :
    told cfg now t ≠ [] ↔ ((passesFilter cfg t now).Temporary → t.stale now) := by
  unfold told
  by_cases hok : passesFilter cfg t now = .ok
  · simp [hok, Reason.Temporary]
  · by_cases htemp : (passesFilter cfg t now).Temporary
    · cases hs : t.stale now <;> simp [hok, htemp]
    · cases hs : t.stale now <;> simp [hok, htemp]

lemma passesFilter_ne_overflow (t : Token) : passesFilter cfg t now ≠ .bufferOverflow := by
  unfold passesFilter
  split_ifs
  · simp
  · simp
  · simp
  · split
    · simp
    · split_ifs <;> simp

lemma reason_of_mem_told {t : Token} {r : Report} (h : r ∈ told cfg now t) :
    r.reason ≠ .bufferOverflow := by
  have hne : passesFilter cfg t now ≠ .bufferOverflow := passesFilter_ne_overflow t
  unfold told at h
  dsimp only at h
  split_ifs at h <;> simp at h
  all_goals rcases h with rfl | rfl <;> simp [hne]

end Sweep

/-! ### Crowded -/

section Events

lemma oldestOf_mem (best : Text × Token) (l : List (Text × Token)) :
    oldestOf best l ∈ best :: l := by
  induction l generalizing best with
  | nil => exact List.mem_cons_self
  | cons x l ih =>
    have h := ih (if x.2.createdTimestamp.lt best.2.createdTimestamp then x else best)
    rw [oldestOf]
    split_ifs at h ⊢
    · exact List.mem_cons_of_mem _ h
    · rcases List.mem_cons.mp h with h | h
      · rw [h]
        exact List.mem_cons_self
      · exact List.mem_cons_of_mem _ (List.mem_cons_of_mem _ h)

lemma evictWhile_below {m : Monitor} (h : m.pending.entries.length < maxPending) (n : ℕ) :
    evictWhile n m = (m, []) := by
  cases n with
  | zero => rfl
  | succ n => rw [evictWhile, if_neg (by omega)]

/-- **Crowded.** A full buffer loses the entry with the least stamp, any other nothing. -/
lemma evictIfCrowded_eq {m : Monitor} (hb : m.pending.entries.length ≤ maxPending) :
    evictIfCrowded m =
      if maxPending ≤ m.pending.entries.length then evictOldest m else (m, []) := by
  by_cases hfull : maxPending ≤ m.pending.entries.length
  · rw [if_pos hfull, evictIfCrowded]
    rcases hx : m.pending.entries with - | ⟨x, rest⟩
    · rw [hx] at hfull
      exact absurd hfull (by decide)
    · have hlen : (x :: rest).length = rest.length + 1 := List.length_cons
      have hget : m.pending.get (oldestOf x rest).1 = some (oldestOf x rest).2 :=
        (m.pending.mem_entries_iff _ _).mp (by rw [hx]; exact oldestOf_mem x rest)
      have hsmall : (m.decide (oldestOf x rest).1).pending.entries.length < maxPending := by
        have := Dict.length_erase hget
        rw [pending_decide]
        omega
      rw [hlen, evictWhile, if_pos hfull]
      simp only [evictOldest, hx, evictWhile_below hsmall, List.append_nil]
  · rw [if_neg hfull]
    exact evictWhile_below (by omega) _

variable {conv : Conversions} {cfg : FilterSettings} {w : World}

/-- A token that an event buffers. -/
def buffer (m : Monitor) (t : Token) : Monitor × List Report :=
  (⟨(evictIfCrowded m).1.pending.set t.mint t, (evictIfCrowded m).1.emitted⟩,
    (evictIfCrowded m).2)

lemma act_event (payload : List (Text × Value)) (now : ℚ) :
    act conv cfg w (.event payload now) =
      match admitted conv w (.event payload now) with
      | some t => buffer w.monitor t
      | none => (w.monitor, []) := by
  unfold act admitted handleEvent
  by_cases hc : isCreate payload
  · rcases hp : parseCreateEvent conv payload now with e | - | t
    · simp [hc, hp, bind, Except.bind]
    · simp [hc, hp, bind, Except.bind]
    · by_cases hm : t.mint ∈ w.monitor.emitted
      · simp [hc, hp, bind, Except.bind, admitToken, hm]
      · simp [hc, hp, bind, Except.bind, admitToken, hm, buffer]
  · have hparse : parseCreateEvent conv payload now = .ok none := by
      simp [parseCreateEvent, hc]
    simp [hc, hparse]

end Events

/-! ### One action -/

/-- What every run that keeps its promise keeps. -/
structure Kept (w : World) : Prop where
  keyed : Keyed w.monitor
  bounded : w.monitor.pending.entries.length ≤ maxPending
  apart : ∀ mint, w.monitor.pending.get mint ≠ none → mint ∉ w.monitor.emitted
  earlier : ∀ mint, w.monitor.pending.get mint ≠ none → (w.received mint).1 < w.events

section Actions

variable {conv : Conversions} {cfg : FilterSettings} {w : World}

lemma kept_init : Kept .init where
  keyed _ _ h := nomatch h
  bounded := Nat.zero_le _
  apart _ h := absurd rfl h
  earlier _ h := absurd rfl h

/-- **Sweeps** keep the promise exactly where the stamps agree with the receipts. -/
lemma sound_sweep_iff (h : Kept w) (now : ℚ) :
    Sound conv cfg w (.sweep now) ↔ StampsAgree cfg w now := by
  have hact : act conv cfg w (.sweep now) = sweep cfg w.monitor now := rfl
  have hreports : reports conv cfg w (.sweep now) = (sweep cfg w.monitor now).2 := rfl
  have hmon : (step conv cfg w (.sweep now)).monitor =
      w.monitor.decideAll ((sweep cfg w.monitor now).2.map Report.mint) := by
    show (act conv cfg w (.sweep now)).1 = _
    rw [hact, sweep_eq h.keyed]
  constructor
  · intro hs mint t ht
    constructor
    · have hone := (nodup_sweep_iff h.keyed).mp (hreports ▸ hs.once.1) mint t ht
      exact (length_told_le_iff t).mp hone
    · intro hlong
      obtain ⟨r, hr, hmint⟩ := hs.timely now rfl mint t ht hlong
      obtain ⟨t', ht', hr'⟩ := (mem_sweep h.keyed).mp (hreports ▸ hr)
      rw [hmint, ht] at ht'
      obtain rfl := Option.some.inj ht'
      exact (told_ne_nil_iff t).mp (List.ne_nil_of_mem hr')
  · intro hagree
    have hnodup : ((sweep cfg w.monitor now).2.map Report.mint).Nodup :=
      (nodup_sweep_iff h.keyed).mpr fun mint t ht =>
        (length_told_le_iff t).mpr (hagree mint t ht).1
    have hbuffered : ∀ r ∈ (sweep cfg w.monitor now).2, w.monitor.pending.get r.mint ≠ none := by
      intro r hr
      obtain ⟨t, ht, -⟩ := (mem_sweep h.keyed).mp hr
      simp [ht]
    refine ⟨?_, ?_, ⟨hreports ▸ hnodup, ?_⟩, ?_, ?_⟩
    · rw [hmon]
      exact (length_decideAll_le _ _).trans h.bounded
    · intro mint hmint hem
      rw [hmon, get_decideAll] at hmint
      rw [hmon, emitted_decideAll] at hem
      split_ifs at hmint with hin
      · exact hmint rfl
      · exact (SeenSet.mem_of_mem_addAll hem).elim hin (h.apart mint hmint)
    · intro r hr
      rw [hreports] at hr
      refine ⟨h.apart _ (hbuffered r hr), ?_⟩
      rw [hmon, emitted_decideAll]
      refine SeenSet.mem_addAll hnodup ?_ (List.mem_map_of_mem hr)
      -- no more is told than is buffered
      have hsub : (sweep cfg w.monitor now).2.map Report.mint ⊆ w.monitor.pending.keys := by
        intro mint hmem
        obtain ⟨r', hr', rfl⟩ := List.mem_map.mp hmem
        exact (w.monitor.pending.mem_keys_iff _).mpr (hbuffered r' hr')
      have hle := (hnodup.subperm hsub).length_le
      have hkeys : w.monitor.pending.keys.length = w.monitor.pending.entries.length :=
        List.length_map _
      have hb := h.bounded
      have hmax : maxPending ≤ maxRemembered := by decide
      omega
    · intro now' ha mint t ht hlong
      obtain rfl : now = now' := by injection ha
      have hne : told cfg now t ≠ [] := (told_ne_nil_iff t).mpr ((hagree mint t ht).2 hlong)
      obtain ⟨r, hr⟩ := List.exists_mem_of_ne_nil _ hne
      have hm : r.mint = mint := (mint_of_mem_told hr).trans (h.keyed mint t ht)
      exact ⟨r, hreports ▸ (mem_sweep h.keyed).mpr ⟨t, hm ▸ ht, hr⟩, hm⟩
    · intro r hr hover
      obtain ⟨t, -, hr'⟩ := (mem_sweep h.keyed).mp (hreports ▸ hr)
      exact absurd hover (reason_of_mem_told hr')

/-- An action that tells nothing and puts no mint into the buffer keeps the promise. -/
lemma sound_of_silent {a : Action} (hreports : reports conv cfg w a = [])
    (hsweep : ∀ now, a ≠ .sweep now)
    (hlen : (step conv cfg w a).monitor.pending.entries.length ≤ maxPending)
    (hem : (step conv cfg w a).monitor.emitted = w.monitor.emitted)
    (hget : ∀ mint, (step conv cfg w a).monitor.pending.get mint ≠ none →
      mint ∉ w.monitor.emitted) : Sound conv cfg w a where
  bounded := hlen
  apart mint hmint := by
    rw [hem]
    exact hget mint hmint
  once := by simp [hreports]
  timely now ha := absurd ha (hsweep now)
  overflow r hr := by simp [hreports] at hr

lemma admitted_not_emitted {a : Action} {t : Token} (ha : admitted conv w a = some t) :
    t.mint ∉ w.monitor.emitted := by
  unfold admitted at ha
  split at ha
  · split at ha
    · split_ifs at ha with hc
      obtain rfl := Option.some.inj ha
      exact hc.2
    · exact nomatch ha
  · exact nomatch ha

/-- An event into a full buffer. -/
lemma sound_crowded_iff (h : Kept w) {payload : List (Text × Value)} {now : ℚ} {t : Token}
    (ha : admitted conv w (.event payload now) = some t)
    (hfull : maxPending ≤ w.monitor.pending.entries.length) :
    Sound conv cfg w (.event payload now) ↔ EvictsFirst w t := by
  obtain ⟨x, rest, hx⟩ : ∃ x rest, w.monitor.pending.entries = x :: rest := by
    rcases hx : w.monitor.pending.entries with - | ⟨x, rest⟩
    · rw [hx] at hfull
      exact absurd hfull (by decide)
    · exact ⟨x, rest, rfl⟩
  obtain ⟨k, old, hk⟩ : ∃ k old, oldestOf x rest = (k, old) := ⟨_, _, rfl⟩
  have hold : w.monitor.pending.get k = some old := by
    refine (w.monitor.pending.mem_entries_iff _ _).mp ?_
    rw [hx, ← hk]
    exact oldestOf_mem x rest
  have hkold : old.mint = k := h.keyed k old hold
  have hevict : evictIfCrowded w.monitor = (w.monitor.decide k, [⟨old, .bufferOverflow⟩]) := by
    rw [evictIfCrowded_eq h.bounded, if_pos hfull, evictOldest, hx]
    simp only [hk]
  have hact : act conv cfg w (.event payload now) =
      (⟨(w.monitor.pending.erase k).set t.mint t, w.monitor.emitted.add k⟩,
        [⟨old, .bufferOverflow⟩]) := by
    rw [act_event, ha]
    simp only [buffer, hevict, pending_decide, emitted_decide]
  have hmon : (step conv cfg w (.event payload now)).monitor =
      ⟨(w.monitor.pending.erase k).set t.mint t, w.monitor.emitted.add k⟩ := congrArg Prod.fst hact
  have hreports : reports conv cfg w (.event payload now) = [⟨old, .bufferOverflow⟩] :=
    congrArg Prod.snd hact
  have hrec : (step conv cfg w (.event payload now)).received =
      Function.update w.received t.mint (w.events, now) := by
    unfold step
    rw [ha]
    rfl
  have hget : ∀ mint, (step conv cfg w (.event payload now)).monitor.pending.get mint =
      if mint = t.mint then some t else if mint = k then none else w.monitor.pending.get mint := by
    intro mint
    rw [hmon, Dict.get_set, Dict.get_erase]
  have hself : k ∈ w.monitor.emitted.add k := SeenSet.self_mem_add _ k (by decide)
  have htnew := admitted_not_emitted ha
  constructor
  · intro hs hfull' x' rest' hx'
    obtain ⟨rfl, rfl⟩ : x = x' ∧ rest = rest' := by
      rw [hx] at hx'
      injection hx' with h₁ h₂
      exact ⟨h₁, h₂⟩
    rw [hk]
    refine ⟨?_, fun mint hmint hne hnt => ?_⟩
    · rintro rfl
      refine hs.apart t.mint (by rw [hget, if_pos rfl]; simp) ?_
      rw [hmon]
      exact hself
    · have := hs.overflow ⟨old, .bufferOverflow⟩ (by simp [hreports]) rfl mint
        (by rw [hget, if_neg hnt, if_neg hne]; exact hmint)
      rw [hrec, Function.update_of_ne hnt] at this
      rwa [Report.mint, hkold] at this
  · intro hc
    obtain ⟨hkt, hfirst⟩ := hc hfull x rest hx
    rw [hk] at hkt hfirst
    refine ⟨?_, ?_, ⟨by simp [hreports], ?_⟩, fun _ ha' => (nomatch ha'), ?_⟩
    · rw [hmon]
      have h₁ := Dict.length_set_le (w.monitor.pending.erase k) t.mint t
      have h₂ := Dict.length_erase hold
      have h₃ := h.bounded
      show ((w.monitor.pending.erase k).set t.mint t).entries.length ≤ maxPending
      omega
    · intro mint hmint hem
      rw [hget] at hmint
      rw [hmon] at hem
      split_ifs at hmint with h₁ h₂
      · subst h₁
        exact (SeenSet.mem_of_mem_add hem).elim (fun e => hkt e.symm) htnew
      · exact hmint rfl
      · exact (SeenSet.mem_of_mem_add hem).elim h₂ (h.apart mint hmint)
    · intro r hr
      rw [hreports, List.mem_singleton] at hr
      subst hr
      rw [Report.mint, hkold, hmon]
      exact ⟨h.apart k (by simp [hold]), hself⟩
    · intro r hr _ mint hmint
      rw [hreports, List.mem_singleton] at hr
      subst hr
      rw [hget] at hmint
      rw [hrec, Report.mint, hkold]
      split_ifs at hmint with h₁ h₂
      · rw [h₁, Function.update_self]
        exact h.earlier k (by simp [hold])
      · exact absurd rfl hmint
      · rw [Function.update_of_ne h₁]
        exact hfirst mint hmint h₂ h₁

lemma sound_event_iff (h : Kept w) (payload : List (Text × Value)) (now : ℚ) :
    Sound conv cfg w (.event payload now) ↔
      ∀ t, admitted conv w (.event payload now) = some t → EvictsFirst w t := by
  have hact : act conv cfg w (.event payload now) =
      match admitted conv w (.event payload now) with
      | some t => buffer w.monitor t
      | none => (w.monitor, []) := act_event payload now
  rcases ha : admitted conv w (.event payload now) with - | t
  · rw [ha] at hact
    have hmon : (step conv cfg w (.event payload now)).monitor = w.monitor :=
      congrArg Prod.fst hact
    refine iff_of_true ?_ (by simp)
    refine sound_of_silent (congrArg Prod.snd hact) (by simp) ?_ ?_ ?_
    · rw [hmon]
      exact h.bounded
    · rw [hmon]
    · rw [hmon]
      exact h.apart
  · have hcond : (∀ t', some t = some t' → EvictsFirst w t') ↔ EvictsFirst w t := by simp
    rw [hcond]
    by_cases hfull : maxPending ≤ w.monitor.pending.entries.length
    · exact sound_crowded_iff h ha hfull
    · have hact : act conv cfg w (.event payload now) =
          (⟨w.monitor.pending.set t.mint t, w.monitor.emitted⟩, []) := by
        rw [act_event, ha]
        simp only [buffer, evictIfCrowded_eq h.bounded, if_neg hfull]
      have hmon : (step conv cfg w (.event payload now)).monitor =
          ⟨w.monitor.pending.set t.mint t, w.monitor.emitted⟩ := congrArg Prod.fst hact
      refine iff_of_true ?_ fun hfull' => absurd hfull' hfull
      refine sound_of_silent (congrArg Prod.snd hact) (by simp) ?_ ?_ ?_
      · rw [hmon]
        have := Dict.length_set_le w.monitor.pending t.mint t
        show (w.monitor.pending.set t.mint t).entries.length ≤ maxPending
        omega
      · rw [hmon]
      · intro mint hmint
        rw [hmon, Dict.get_set] at hmint
        split_ifs at hmint with hm
        · rw [hm]
          exact admitted_not_emitted ha
        · exact h.apart mint hmint

lemma sound_evidence (h : Kept w) (mint : Text) (buyers : ℕ) :
    Sound conv cfg w (.evidence mint buyers) := by
  rcases hg : w.monitor.pending.get mint with - | t
  · have hact : act conv cfg w (.evidence mint buyers) = (w.monitor, []) := by
      simp [act, hg]
    have hmon : (step conv cfg w (.evidence mint buyers)).monitor = w.monitor :=
      congrArg Prod.fst hact
    refine sound_of_silent (congrArg Prod.snd hact) (by simp) ?_ ?_ ?_
    · rw [hmon]
      exact h.bounded
    · rw [hmon]
    · rw [hmon]
      exact h.apart
  · have hact : act conv cfg w (.evidence mint buyers) =
        (⟨w.monitor.pending.set mint { t with uniqueBuyers := buyers }, w.monitor.emitted⟩,
          []) := by
      simp [act, hg]
    have hmon : (step conv cfg w (.evidence mint buyers)).monitor =
        ⟨w.monitor.pending.set mint { t with uniqueBuyers := buyers }, w.monitor.emitted⟩ :=
      congrArg Prod.fst hact
    refine sound_of_silent (congrArg Prod.snd hact) (by simp) ?_ ?_ ?_
    · rw [hmon]
      exact (Dict.length_set_old _ hg).trans_le h.bounded
    · rw [hmon]
    · intro j hj
      rw [hmon, Dict.get_set] at hj
      split_ifs at hj with hm
      · rw [hm]
        exact h.apart mint (by simp [hg])
      · exact h.apart j hj

/-- **One action** keeps the promise exactly where its condition holds. -/
theorem sound_iff (h : Kept w) (a : Action) : Sound conv cfg w a ↔ Trusted conv cfg w a := by
  cases a with
  | event payload now => exact sound_event_iff h payload now
  | sweep now => exact sound_sweep_iff h now
  | evidence mint buyers => exact iff_of_true (sound_evidence h mint buyers) trivial

/-- What an action leaves in the buffer under a mint: what was there, perhaps with new evidence,
or the token it admitted. -/
lemma pending_step (h : Kept w) {a : Action} {mint : Text} {t : Token}
    (ht : (step conv cfg w a).monitor.pending.get mint = some t) :
    (∃ u, w.monitor.pending.get mint = some u ∧ t.mint = u.mint) ∨
      admitted conv w a = some t ∧ t.mint = mint := by
  cases a with
  | event payload now =>
    have hmon : (step conv cfg w (.event payload now)).monitor =
        (act conv cfg w (.event payload now)).1 := rfl
    rw [hmon, act_event] at ht
    rcases ha : admitted conv w (.event payload now) with - | u
    · rw [ha] at ht
      exact .inl ⟨t, ht, rfl⟩
    · rw [ha] at ht
      simp only [buffer, Dict.get_set] at ht
      split_ifs at ht with hm
      · obtain rfl := Option.some.inj ht
        exact .inr ⟨rfl, hm.symm⟩
      · left
        rw [evictIfCrowded_eq h.bounded] at ht
        split_ifs at ht
        · unfold evictOldest at ht
          split at ht
          · exact ⟨t, ht, rfl⟩
          · rw [pending_decide, Dict.get_erase] at ht
            split_ifs at ht
            exact ⟨t, ht, rfl⟩
        · exact ⟨t, ht, rfl⟩
  | sweep now =>
    have hmon : (step conv cfg w (.sweep now)).monitor = (sweep cfg w.monitor now).1 := rfl
    rw [hmon, sweep_eq h.keyed, get_decideAll] at ht
    split_ifs at ht
    exact .inl ⟨t, ht, rfl⟩
  | evidence j buyers =>
    left
    have hmon : (step conv cfg w (.evidence j buyers)).monitor =
        (act conv cfg w (.evidence j buyers)).1 := rfl
    rw [hmon] at ht
    unfold act at ht
    rcases hg : w.monitor.pending.get j with - | u
    · simp only [hg] at ht
      exact ⟨t, ht, rfl⟩
    · simp only [hg, Dict.get_set] at ht
      split_ifs at ht with hm
      · obtain rfl := Option.some.inj ht
        exact ⟨u, by rw [hm, hg], rfl⟩
      · exact ⟨t, ht, rfl⟩

lemma kept_step (h : Kept w) {a : Action} (hs : Sound conv cfg w a) :
    Kept (step conv cfg w a) where
  keyed mint t ht := by
    rcases pending_step h ht with ⟨u, hu, hmint⟩ | ⟨-, hmint⟩
    · exact hmint.trans (h.keyed mint u hu)
    · exact hmint
  bounded := hs.bounded
  apart := hs.apart
  earlier mint hmint := by
    have hevents : (step conv cfg w a).events = w.events + 1 := rfl
    obtain ⟨t, ht⟩ := Option.ne_none_iff_exists'.mp hmint
    rw [hevents]
    unfold step
    rcases ha : admitted conv w a with - | u
    · rcases pending_step h ht with ⟨u, hu, -⟩ | ⟨hu, -⟩
      · have := h.earlier mint (by simp [hu])
        simp only
        omega
      · rw [ha] at hu
        cases hu
    · simp only
      by_cases hm : mint = u.mint
      · rw [hm, Function.update_self]
        exact Nat.lt_succ_self _
      · rw [Function.update_of_ne hm]
        rcases pending_step h ht with ⟨v, hv, -⟩ | ⟨hu, hmint'⟩
        · have := h.earlier mint (by simp [hv])
          omega
        · rw [ha] at hu
          obtain rfl := Option.some.inj hu
          exact absurd hmint'.symm hm

end Actions

/-! ### Runs -/

theorem along_sound_iff {conv : Conversions} {cfg : FilterSettings} {w : World} (h : Kept w)
    (as : List Action) :
    Runs.Along (step conv cfg) (Sound conv cfg) w as ↔
      Runs.Along (step conv cfg) (Trusted conv cfg) w as :=
  Runs.along_iff_along (P := Sound conv cfg) (C := Trusted conv cfg) (J := Kept)
    (fun _ a h => sound_iff h a) (fun _ _ h hs => kept_step h hs) h as

/-- **When the buffer keeps its promise.** A run keeps it in all its actions exactly when at each
sweep the stamps agree with the receipts, and each event that finds the buffer full evicts the
token received first and not the one of its own mint. -/
theorem buffer_sound_iff (conv : Conversions) (cfg : FilterSettings) (as : List Action) :
    Runs.Along (step conv cfg) (Sound conv cfg) .init as ↔
      Runs.Along (step conv cfg) (Trusted conv cfg) .init as :=
  along_sound_iff kept_init as

/-! ### A launch that is older than the lifetime -/

namespace Sample

def conv : Conversions where
  float
    | some (.num n) => .ok (.fin n)
    | _ => .error .refused
  solToLamports _ := none

def payload : List (Text × Value) :=
  [(text "txType", .str (text "create")), (text "mint", .str (text "A")),
    (text "name", .str (text "n")), (text "image", .str (text "i")), (text "timestamp", .num 1000)]

def launch : Action := .event payload 2000

lemma reported_twice : (reports conv {} (step conv {} .init launch) (.sweep 2000)).map
    (fun r => (r.mint, r.reason)) =
      [(text "A", .dataUnavailable), (text "A", .staleNoTraction)] := by
  decide +kernel

end Sample

/-- A launch with a stamp of a thousand seconds ago is skipped twice by one sweep. -/
theorem old_launch_reported_twice :
    ¬ Runs.Along (step Sample.conv {}) (Sound Sample.conv {}) .init
      [Sample.launch, .sweep 2000] := by
  rintro ⟨-, hs, -⟩
  have h := congrArg (List.map Prod.fst) Sample.reported_twice
  rw [List.map_map] at h
  have hnodup := hs.once.1
  have hfst : (Prod.fst ∘ fun r : Report => (r.mint, r.reason)) = Report.mint := rfl
  rw [hfst] at h
  rw [h] at hnodup
  simp at hnodup

end LaunchMonitor

end PumpGrok
