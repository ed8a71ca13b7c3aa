import PumpGrok.Backtest.Candidate
import PumpGrok.Lib.Prog
import PumpGrok.Lib.Runs

/-!
The active parameter set of a ledger: its name in `ConfigChanged` rows, its content in the meta
table under that name; promotion, rollback and the readers.

The content is written before its row and outside the row's transaction. A promotion does not ask
who writes it, while the reader and the rollback do.
-/

namespace PumpGrok

namespace ActiveSet

/-! ### The store -/

structure ConfigRow where
  author : Text
  keysChanged : List Text
  oldHash : Hash
  newHash : Hash

inductive RowPayload where
  | configChanged (row : ConfigRow)
  | journalNote (text : Text)
  /-- a row of another type -/
  | other (type : Text)

structure Row where
  ts : Text
  source : Text
  correlationId : Text
  idempotencyKey : Text
  payload : RowPayload

structure Store where
  rows : List Row := []
  /-- the meta table, by the hash its keys end in -/
  content : Hash → Option Text := fun _ => none
  inconsistent : Bool := false

inductive Refusal where
  /-- a leaf that cannot be hashed -/
  | leaf
  /-- the set does not round-trip through canonical JSON -/
  | roundTrip
  | envelope
  | integrity
  | ledgerInconsistent
  | database
  | corruptState
  | priorHash
  | writer
  | genesisNotRecorded
  | storedContent
  deriving DecidableEq

def sources : List Text := ["paper".toList, "replay".toList, "manual".toList]

def envelopeOk (r : Row) : Bool :=
  sources.contains r.source && r.ts ≠ [] && r.correlationId ≠ [] && r.idempotencyKey ≠ []

/-- The rows after inserting each of a batch in turn. -/
def insertEach (rows : List Row) : List Row → Except Refusal (List Row)
  | [] => .ok rows
  | r :: rs =>
    if !envelopeOk r then .error .envelope
    else if r.idempotencyKey ∈ rows.map Row.idempotencyKey then .error .integrity
    else insertEach (rows ++ [r]) rs

/-- All rows or none; the database itself may refuse them. -/
def appendBatch (faulty : Bool) (batch : List Row) : Prog Store Refusal Unit := fun s =>
  if batch = [] then (.ok (), s)
  else if s.inconsistent then (.error .ledgerInconsistent, s)
  else if faulty then (.error .database, s)
  else
    match insertEach s.rows batch with
    | .error e => (.error e, s)
    | .ok rows => (.ok (), { s with rows := rows })

def setMeta (h : Hash) (text : Text) : Prog Store Refusal Unit :=
  Prog.modify fun s => { s with content := Function.update s.content h (some text) }

/-! ### Readers -/

def activeSetKey : Text := "active_param_set".toList

def isWriter (author : Text) : Bool :=
  "human:".toList.isPrefixOf author || "gate:".toList.isPrefixOf author

/-- The hash a row activates for the reader. -/
def counted (r : Row) : Option Hash :=
  match r.payload with
  | .configChanged row =>
    if !row.keysChanged.contains activeSetKey then none
    else if !isHash row.newHash then none
    else if !isWriter row.author then none
    else some row.newHash
  | _ => none

def latest (rows : List Row) : Option Hash :=
  rows.foldl (fun active r => (counted r).orElse fun _ => active) none

def readActiveSet (s : Store) : Option Hash := latest s.rows

variable {deps : CandidateDeps}

def loadVerifiedParamSet (deps : CandidateDeps) (s : Store) (h : Hash) :
    Except Refusal (ParamSet deps) :=
  match s.content h with
  | none => .error .corruptState
  | some raw =>
    match decodeParamSet deps raw with
    | none => .error .corruptState
    | some p => if contentHash p = some h then .ok p else .error .corruptState

def readActiveParamSet (deps : CandidateDeps) (s : Store) :
    Except Refusal (Option (ParamSet deps)) :=
  match readActiveSet s with
  | none => .ok none
  | some h => (loadVerifiedParamSet deps s h).map some

/-- The set without overrides. -/
def noOverride (deps : CandidateDeps) : ParamSet deps := ⟨none, none, rfl, rfl⟩

def verifyStoredContent (deps : CandidateDeps) (h : Hash) : Prog Store Refusal Unit := fun s =>
  match s.content h with
  | none =>
    (.error (if some h = contentHash (noOverride deps) then .genesisNotRecorded
      else .storedContent), s)
  | some raw =>
    match decodeParamSet deps raw with
    | none => (.error .storedContent, s)
    | some p => if contentHash p = some h then (.ok (), s) else (.error .storedContent, s)

/-! ### Promotion and rollback -/

/-- Who calls, and what the rows carry. -/
structure Envelope where
  author : Text
  ts : Text
  source : Text
  correlationId : Text

def bar : Text := ['|']

/-- A `ConfigChanged` row and its note. -/
def pairRows (e : Envelope) (key noteKey note : Text) (previous : Option Hash) (h : Hash) :
    List Row :=
  [{ ts := e.ts
     source := e.source
     correlationId := e.correlationId
     idempotencyKey := key ++ bar ++ h ++ bar ++ e.ts
     payload := .configChanged
       { author := e.author
         keysChanged := [activeSetKey]
         oldHash := previous.getD []
         newHash := h } },
    { ts := e.ts
      source := e.source
      correlationId := e.correlationId
      idempotencyKey := noteKey ++ bar ++ h ++ bar ++ e.ts
      payload := .journalNote (note ++ h ++ " from ".toList ++ e.source) }]

def activeSetRows (e : Envelope) (previous : Option Hash) (h : Hash) : List Row :=
  pairRows e "active-param-set".toList "active-param-set-note".toList "active_param_set ".toList
    previous h

def rollbackRows (e : Envelope) (previous : Option Hash) (h : Hash) : List Row :=
  pairRows e "rollback-active-param-set".toList "rollback-active-param-set-note".toList
    "rollback active_param_set ".toList previous h

/-- A value, or a refusal where there is none. -/
def orRefuse {α : Type} (e : Refusal) : Option α → Prog Store Refusal α
  | none => Prog.raise e
  | some a => pure a

lemma orRefuse_some_bind {α β : Type} (e : Refusal) (a : α) (f : α → Prog Store Refusal β)
    (s : Store) : (orRefuse e (some a) >>= f) s = f a s := rfl

/-- Which of a call's statements the database refuses. -/
structure Faults where
  content : Bool := false
  append : Bool := false

def recordActiveSet (faults : Faults) (p : ParamSet deps) (e : Envelope) :
    Prog Store Refusal Hash := do
  let newHash ← orRefuse .leaf (contentHash p)
  let text ← orRefuse .roundTrip (canonicalParamSet p)
  Prog.raiseIf (faults.content = true) .database
  setMeta newHash text
  let previous ← Prog.read readActiveSet
  appendBatch faults.append (activeSetRows e previous newHash)
  pure newHash

def restoreActiveSet (deps : CandidateDeps) (faults : Faults) (priorHash : Text) (e : Envelope) :
    Prog Store Refusal Hash := do
  Prog.raiseIf (isHash priorHash = false) .priorHash
  Prog.raiseIf (isWriter e.author = false) .writer
  verifyStoredContent deps priorHash
  let previous ← Prog.read readActiveSet
  appendBatch faults.append (rollbackRows e previous priorHash)
  pure priorHash

/-! ### What a call does -/

/-- The rows of a batch are accepted. -/
def appendable (faulty : Bool) (batch : List Row) (s : Store) : Bool :=
  !s.inconsistent && !faulty && (insertEach s.rows batch).isOk

/-- The store once a content is written. -/
def Store.holding (s : Store) (h : Hash) (text : Text) : Store :=
  { s with content := Function.update s.content h (some text) }

def Store.extended (s : Store) (batch : List Row) : Store := { s with rows := s.rows ++ batch }

section Calls

variable {s : Store} {faulty : Bool} {batch : List Row}

lemma setMeta_bind {β : Type} (h : Hash) (t : Text) (f : Unit → Prog Store Refusal β) (s : Store) :
    (setMeta h t >>= f) s = f () (s.holding h t) := rfl

lemma read_bind {α β : Type} (g : Store → α) (f : α → Prog Store Refusal β) (s : Store) :
    (Prog.read g >>= f) s = f (g s) s := rfl

@[simp] lemma holding_rows (h : Hash) (t : Text) : (s.holding h t).rows = s.rows := rfl

@[simp] lemma extended_content : (s.extended batch).content = s.content := rfl

@[simp] lemma readActiveSet_holding (h : Hash) (t : Text) :
    readActiveSet (s.holding h t) = readActiveSet s := rfl

lemma insertEach_ok {rows rows' : List Row} (h : insertEach rows batch = .ok rows') :
    rows' = rows ++ batch := by
  induction batch generalizing rows with
  | nil =>
    cases h
    simp
  | cons r rs ih =>
    rw [insertEach] at h
    split_ifs at h
    rw [ih h]
    simp

lemma appendBatch_run (s : Store) (faulty : Bool) (hb : batch ≠ []) :
    (appendable faulty batch s = true ∧ appendBatch faulty batch s = (.ok (), s.extended batch)) ∨
      (appendable faulty batch s = false ∧ ∃ e, appendBatch faulty batch s = (.error e, s)) := by
  rw [appendBatch, if_neg hb, appendable]
  by_cases hi : s.inconsistent = true
  · right
    simp [hi]
  · rw [Bool.not_eq_true] at hi
    cases faulty with
    | true =>
      right
      simp [hi]
    | false =>
      rcases hrows : insertEach s.rows batch with e | rows
      · right
        simp [hi, Except.isOk, Except.toBool]
      · left
        simp [hi, Except.isOk, Except.toBool, Store.extended, insertEach_ok hrows]

lemma pairRows_ne_nil (e : Envelope) (key noteKey note : Text) (previous : Option Hash)
    (h : Hash) : pairRows e key noteKey note previous h ≠ [] := by
  simp [pairRows]

/-- **A promotion** is refused before it writes, or writes its content and then its rows, which
may still be refused. -/
lemma recordActiveSet_run (faults : Faults) (p : ParamSet deps) (e : Envelope) (s : Store) :
    (∃ x, recordActiveSet faults p e s = (.error x, s) ∧
      ¬ ∃ h t, contentHash p = some h ∧ canonicalParamSet p = some t ∧ faults.content = false) ∨
    ∃ h t, contentHash p = some h ∧ canonicalParamSet p = some t ∧ faults.content = false ∧
      ((appendable faults.append (activeSetRows e (readActiveSet s) h) s = true ∧
        recordActiveSet faults p e s =
          (.ok h, (s.holding h t).extended (activeSetRows e (readActiveSet s) h))) ∨
      (appendable faults.append (activeSetRows e (readActiveSet s) h) s = false ∧
        ∃ x, recordActiveSet faults p e s = (.error x, s.holding h t))) := by
  unfold recordActiveSet
  rcases hh : contentHash p with - | h
  · exact .inl ⟨.leaf, rfl, by simp⟩
  · rcases ht : canonicalParamSet p with - | t
    · exact .inl ⟨.roundTrip, rfl, by simp⟩
    · simp only [orRefuse_some_bind, Prog.raiseIf_bind_run, setMeta_bind, read_bind]
      by_cases hf : faults.content = true
      · exact .inl ⟨.database, by simp [hf], by simp [hf]⟩
      · simp only [if_neg hf]
        refine .inr ⟨h, t, rfl, rfl, by simpa using hf, ?_⟩
        have hne := pairRows_ne_nil e "active-param-set".toList "active-param-set-note".toList
          "active_param_set ".toList (readActiveSet s) h
        rcases appendBatch_run (s.holding h t) faults.append hne with
          ⟨ha, hrun⟩ | ⟨ha, x, hrun⟩
        · exact .inl ⟨ha, Prog.bind_run_ok hrun⟩
        · exact .inr ⟨ha, x, Prog.bind_run_error hrun⟩

/-- **A rollback** changes nothing, or appends its rows to a store whose content it has verified. -/
lemma restoreActiveSet_run (deps : CandidateDeps) (faults : Faults) (h : Text) (e : Envelope)
    (s : Store) :
    (∃ x, restoreActiveSet deps faults h e s = (.error x, s)) ∨
      (isHash h = true ∧ isWriter e.author = true ∧
        (∃ p, loadVerifiedParamSet deps s h = .ok p) ∧
        restoreActiveSet deps faults h e s =
          (.ok h, s.extended (rollbackRows e (readActiveSet s) h))) := by
  unfold restoreActiveSet
  rw [Prog.raiseIf_bind_run]
  by_cases hh : isHash h = false
  · exact .inl ⟨.priorHash, by simp [hh]⟩
  rw [if_neg hh, Prog.raiseIf_bind_run]
  by_cases hw : isWriter e.author = false
  · exact .inl ⟨.writer, by simp [hw]⟩
  rw [if_neg hw]
  rcases hv : verifyStoredContent deps h s with ⟨x | u, s'⟩
  · have hs : s' = s := by
      unfold verifyStoredContent at hv
      split at hv
      · exact (Prod.mk.inj hv).2.symm
      · split at hv
        · exact (Prod.mk.inj hv).2.symm
        · split_ifs at hv <;> exact (Prod.mk.inj hv).2.symm
    exact .inl ⟨x, by rw [Prog.bind_run_error hv, hs]⟩
  · have hload : s' = s ∧ ∃ p, loadVerifiedParamSet deps s h = .ok p := by
      unfold verifyStoredContent at hv
      rcases hc : s.content h with - | raw
      · simp [hc] at hv
      · rcases hd : decodeParamSet deps raw with - | p
        · simp [hc, hd] at hv
        · by_cases heq : contentHash p = some h
          · simp only [hc, hd, heq, if_true, Prod.mk.injEq] at hv
            exact ⟨hv.2.symm, p, by simp [loadVerifiedParamSet, hc, hd, heq]⟩
          · simp [hc, hd, heq] at hv
    obtain ⟨rfl, hload⟩ := hload
    rw [Prog.bind_run_ok hv, read_bind]
    have hne := pairRows_ne_nil e "rollback-active-param-set".toList
      "rollback-active-param-set-note".toList "rollback active_param_set ".toList
      (readActiveSet s') h
    rcases appendBatch_run s' faults.append hne with ⟨-, hrun⟩ | ⟨-, x, hrun⟩
    · exact .inr ⟨by simpa using hh, by simpa using hw, hload, Prog.bind_run_ok hrun⟩
    · exact .inl ⟨x, Prog.bind_run_error hrun⟩

end Calls

/-! ### The reader over more rows -/

/-- A row the reader counts names the hash. -/
def Named (s : Store) (h : Hash) : Prop := ∃ r ∈ s.rows, counted r = some h

lemma latest_append (rows batch : List Row) :
    latest (rows ++ batch) = (latest batch).orElse fun _ => latest rows := by
  induction batch using List.reverseRecOn with
  | nil => simp [latest]
  | append_singleton rs r ih =>
    have hfold : ∀ xs : List Row,
        latest (xs ++ [r]) = (counted r).orElse fun _ => latest xs := by
      intro xs
      simp [latest, List.foldl_append]
    rw [← List.append_assoc, hfold, hfold, ih]
    cases counted r <;> rfl

lemma named_of_latest {s : Store} {h : Hash} (hs : readActiveSet s = some h) : Named s h := by
  obtain ⟨rows, content, inconsistent⟩ := s
  unfold readActiveSet at hs
  induction rows using List.reverseRecOn with
  | nil => exact nomatch hs
  | append_singleton rs r ih =>
    rw [latest_append] at hs
    rcases hr : counted r with - | h'
    · have hlast : latest [r] = none := by simp [latest, hr]
      rw [hlast] at hs
      obtain ⟨x, hx, hxh⟩ := ih hs
      exact ⟨x, List.mem_append_left _ hx, hxh⟩
    · have hlast : latest [r] = some h' := by simp [latest, hr]
      rw [hlast] at hs
      obtain rfl := Option.some.inj hs
      exact ⟨r, by simp, hr⟩

lemma counted_pair {e : Envelope} {key noteKey note : Text} {previous : Option Hash} {h : Hash}
    (hh : isHash h = true) :
    latest (pairRows e key noteKey note previous h) =
      if isWriter e.author then some h else none := by
  by_cases hw : isWriter e.author = true <;>
    simp [latest, pairRows, counted, hh, hw]

lemma named_extended_pair {s : Store} {e : Envelope} {key noteKey note : Text}
    {previous : Option Hash} {h j : Hash} (hh : isHash h = true) :
    Named (s.extended (pairRows e key noteKey note previous h)) j ↔
      Named s j ∨ (isWriter e.author = true ∧ j = h) := by
  have hbatch : (∃ r ∈ pairRows e key noteKey note previous h, counted r = some j) ↔
      isWriter e.author = true ∧ j = h := by
    by_cases hw : isWriter e.author = true <;> simp [pairRows, counted, hh, hw, @eq_comm _ j]
  rw [← hbatch, Named, Named, Store.extended]
  simp only [List.mem_append, or_and_right, exists_or]

lemma readActiveSet_extended_pair {s : Store} {e : Envelope} {key noteKey note : Text}
    {previous : Option Hash} {h : Hash} (hh : isHash h = true) :
    readActiveSet (s.extended (pairRows e key noteKey note previous h)) =
      if isWriter e.author then some h else readActiveSet s := by
  rw [readActiveSet, Store.extended, latest_append, counted_pair hh]
  split_ifs <;> rfl

/-! ### Runs -/

inductive Action (deps : CandidateDeps) where
  | record (faults : Faults) (p : ParamSet deps) (e : Envelope)
  | restore (faults : Faults) (priorHash : Text) (e : Envelope)
  /-- a row of another writer, which the reader does not count -/
  | append (row : Row) (h : counted row = none)
  /-- this handle verifies the chain -/
  | verified (inconsistent : Bool)

structure World (deps : CandidateDeps) where
  store : Store := {}
  /-- the hash the last accepted call returned -/
  last : Option Hash := none
  /-- what was active after a call, newest first -/
  past : List (Hash × ParamSet deps) := []

def perform (s : Store) : Action deps → Option (Except Refusal Hash) × Store
  | .record faults p e =>
    (some (recordActiveSet faults p e s).1, (recordActiveSet faults p e s).2)
  | .restore faults h e =>
    (some (restoreActiveSet deps faults h e s).1, (restoreActiveSet deps faults h e s).2)
  | .append row _ => (none, s.extended [row])
  | .verified b => (none, { s with inconsistent := b })

def activeNow (deps : CandidateDeps) (s : Store) : List (Hash × ParamSet deps) :=
  match readActiveSet s, readActiveParamSet deps s with
  | some h, .ok (some p) => [(h, p)]
  | _, _ => []

def step (w : World deps) (a : Action deps) : World deps where
  store := (perform w.store a).2
  last :=
    match (perform w.store a).1 with
    | some (.ok h) => some h
    | _ => w.last
  past := activeNow deps (perform w.store a).2 ++ w.past

/-- What is promised of one action. -/
structure Exact (w : World deps) (a : Action deps) : Prop where
  named : readActiveSet (step w a).store = (step w a).last
  loads : ∀ h, readActiveSet (step w a).store = some h →
    ∃ p, readActiveParamSet deps (step w a).store = .ok (some p) ∧ contentHash p = some h
  refused : ∀ x, (perform w.store a).1 = some (.error x) →
    readActiveSet (step w a).store = readActiveSet w.store ∧
      readActiveParamSet deps (step w a).store = readActiveParamSet deps w.store
  restored : ∀ faults h e, a = .restore faults h e → (perform w.store a).1 = some (.ok h) →
    ∀ p, (h, p) ∈ w.past → readActiveParamSet deps (step w a).store = .ok (some p)
  /-- a rollback to a set that was active would load it -/
  restores : ∀ h p, (h, p) ∈ (step w a).past →
    loadVerifiedParamSet deps (step w a).store h = .ok p

/-- A promotion keeps the promise: a hash the ledger names already has this very text, and an
accepted activation is by a writer, or of the active set. -/
def Faithful (w : World deps) : Action deps → Prop
  | .record faults p e => ∀ h t, contentHash p = some h → canonicalParamSet p = some t →
      faults.content = false →
        (Named w.store h → w.store.content h = some t) ∧
        (appendable faults.append (activeSetRows e (readActiveSet w.store) h) w.store = true →
          isWriter e.author = true ∨ readActiveSet w.store = some h)
  | _ => True

/-- What every run that keeps the promise keeps. -/
structure Kept (w : World deps) : Prop where
  last : readActiveSet w.store = w.last
  named : ∀ h, Named w.store h → ∃ p, (h, p) ∈ w.past
  past : ∀ h p, (h, p) ∈ w.past →
    Named w.store h ∧ loadVerifiedParamSet deps w.store h = .ok p
  canonical : ∀ h t, w.store.content h = some t → ∃ p : ParamSet deps, t = dumpedText p

lemma kept_start : Kept ({} : World deps) where
  last := rfl
  named h hn := by
    obtain ⟨r, hr, -⟩ := hn
    exact nomatch hr
  past h p hp := nomatch hp
  canonical h t ht := nomatch ht

section Loading

variable {s : Store} {h j : Hash} {t : Text} {p q : ParamSet deps}

lemma loadVerified_ok_iff : loadVerifiedParamSet deps s h = .ok p ↔
    ∃ raw, s.content h = some raw ∧ decodeParamSet deps raw = some p ∧ contentHash p = some h := by
  unfold loadVerifiedParamSet
  rcases hc : s.content h with - | raw
  · simp
  · rcases hd : decodeParamSet deps raw with - | q
    · simp [hd]
    · simp only [hd, Option.some.injEq, exists_eq_left']
      by_cases hq : contentHash q = some h
      · rw [if_pos hq, Except.ok.injEq]
        constructor
        · rintro rfl
          exact ⟨rfl, hq⟩
        · exact fun hp => hp.1
      · rw [if_neg hq]
        refine iff_of_false (by simp) ?_
        rintro ⟨rfl, hp⟩
        exact hq hp

lemma loadVerified_congr {s' : Store} (hc : s'.content h = s.content h) :
    loadVerifiedParamSet deps s' h = loadVerifiedParamSet deps s h := by
  rw [loadVerifiedParamSet, loadVerifiedParamSet, hc]

/-- A text written for a set loads. -/
lemma loadVerified_holding (hp : contentHash p = some h) (ht : canonicalParamSet p = some t) :
    ∃ q, loadVerifiedParamSet deps (s.holding h t) h = .ok q := by
  obtain ⟨-, q, hq, hhash⟩ := canonicalParamSet_spec ht
  exact ⟨q, loadVerified_ok_iff.mpr ⟨t, by simp [Store.holding], hq, hhash.trans hp⟩⟩

lemma holding_content_ne (hj : j ≠ h) : (s.holding h t).content j = s.content j :=
  Function.update_of_ne hj _ _

lemma holding_same (hc : s.content h = some t) : s.holding h t = s := by
  have hupdate : Function.update s.content h (some t) = s.content := by
    rw [← hc, Function.update_eq_self]
  rw [Store.holding, hupdate]

/-- Two canonical texts that load as one set are one text. -/
lemma text_of_load {p' : ParamSet deps} (hs : s.content h = some (dumpedText p'))
    (hload : loadVerifiedParamSet deps s h = .ok q) (ht : canonicalParamSet p = some t)
    (hload' : loadVerifiedParamSet deps (s.holding h t) h = .ok q) : t = dumpedText p' := by
  obtain ⟨raw, hraw, hdec, -⟩ := loadVerified_ok_iff.mp hload
  obtain ⟨raw', hraw', hdec', -⟩ := loadVerified_ok_iff.mp hload'
  rw [hs] at hraw
  obtain rfl := Option.some.inj hraw
  have : raw' = t := by simpa [Store.holding, eq_comm] using hraw'
  subst this
  obtain ⟨rfl, -⟩ := canonicalParamSet_spec ht
  rw [dumpedText_of_decode hdec, dumpedText_of_decode hdec']

end Loading

section Steps

variable {w : World deps} {a : Action deps}

lemma readActiveParamSet_some {s : Store} {h : Hash} {p : ParamSet deps}
    (ha : readActiveSet s = some h) :
    readActiveParamSet deps s = .ok (some p) ↔ loadVerifiedParamSet deps s h = .ok p := by
  rw [readActiveParamSet, ha]
  rcases hl : loadVerifiedParamSet deps s h with x | q <;> simp [Except.map, hl]

lemma mem_activeNow {s : Store} {h : Hash} {p : ParamSet deps} :
    (h, p) ∈ activeNow deps s ↔
      readActiveSet s = some h ∧ loadVerifiedParamSet deps s h = .ok p := by
  unfold activeNow
  rcases ha : readActiveSet s with - | j
  · simp
  · rcases hr : readActiveParamSet deps s with x | (- | q)
    · simp only [List.not_mem_nil, Option.some.injEq, false_iff, not_and]
      rintro rfl hl
      rw [(readActiveParamSet_some ha).mpr hl] at hr
      exact nomatch hr
    · simp only [List.not_mem_nil, Option.some.injEq, false_iff, not_and]
      rintro rfl hl
      rw [(readActiveParamSet_some ha).mpr hl] at hr
      simp at hr
    · have hq := (readActiveParamSet_some ha).mp hr
      simp only [List.mem_singleton, Prod.mk.injEq, Option.some.injEq]
      constructor
      · rintro ⟨rfl, rfl⟩
        exact ⟨rfl, hq⟩
      · rintro ⟨rfl, hl⟩
        rw [hq, Except.ok.injEq] at hl
        exact ⟨rfl, hl.symm⟩

lemma past_step (w : World deps) (a : Action deps) :
    (step w a).past = activeNow deps (step w a).store ++ w.past := rfl

/-- The active set loads in a state that keeps the promise. -/
lemma Kept.active (hk : Kept w) {h : Hash} (ha : readActiveSet w.store = some h) :
    ∃ p, (h, p) ∈ w.past ∧ loadVerifiedParamSet deps w.store h = .ok p := by
  obtain ⟨p, hp⟩ := hk.named h (named_of_latest ha)
  exact ⟨p, hp, (hk.past h p hp).2⟩

/-- An action keeps the promise when the reader names the last hash, all that was active still
loads as it was, the active set loads, and a refusal leaves the reader's hash alone. -/
lemma exact_of (hk : Kept w) (hlast : readActiveSet (step w a).store = (step w a).last)
    (hpast : ∀ h p, (h, p) ∈ w.past → loadVerifiedParamSet deps (step w a).store h = .ok p)
    (hloads : ∀ h, readActiveSet (step w a).store = some h →
      ∃ p, loadVerifiedParamSet deps (step w a).store h = .ok p)
    (hrefused : ∀ x, (perform w.store a).1 = some (.error x) →
      readActiveSet (step w a).store = readActiveSet w.store) : Exact w a where
  named := hlast
  loads h ha := by
    obtain ⟨p, hp⟩ := hloads h ha
    obtain ⟨-, -, -, hhash⟩ := loadVerified_ok_iff.mp hp
    exact ⟨p, (readActiveParamSet_some ha).mpr hp, hhash⟩
  refused x hx := by
    have hsame := hrefused x hx
    refine ⟨hsame, ?_⟩
    rcases ha : readActiveSet w.store with - | h
    · rw [readActiveParamSet, readActiveParamSet, hsame, ha]
    · obtain ⟨p, hp, hl⟩ := hk.active ha
      rw [(readActiveParamSet_some ha).mpr hl,
        (readActiveParamSet_some (hsame.trans ha)).mpr (hpast h p hp)]
  restored faults h e ha hok p hp := by
    have hnow : readActiveSet (step w a).store = some h := by
      rw [hlast, step, hok]
    exact (readActiveParamSet_some hnow).mpr (hpast h p hp)
  restores h p hp := by
    rcases List.mem_append.mp (past_step w a ▸ hp) with hnow | hp
    · exact (mem_activeNow.mp hnow).2
    · exact hpast h p hp

/-- What an action leaves of the store: the rows the reader counts are those of before and perhaps
one more, which is then active; and what is stored is what was, or a text written for a set. -/
structure Grown (deps : CandidateDeps) (s s' : Store) : Prop where
  named : ∀ h, Named s' h → Named s h ∨ readActiveSet s' = some h
  mono : ∀ h, Named s h → Named s' h
  content : ∀ (h : Hash) (t : Text), s'.content h = some t →
    s.content h = some t ∨ ∃ p : ParamSet deps, t = dumpedText p

lemma grown_refl (s : Store) : Grown deps s s where
  named _ h := .inl h
  mono _ h := h
  content _ _ h := .inl h

lemma grown_holding (s : Store) {p : ParamSet deps} {h : Hash} {t : Text}
    (ht : canonicalParamSet p = some t) : Grown deps s (s.holding h t) where
  named _ hn := .inl hn
  mono _ hn := hn
  content j u hu := by
    by_cases hj : j = h
    · subst hj
      have : u = t := by simpa [Store.holding, eq_comm] using hu
      exact .inr ⟨p, this.trans (canonicalParamSet_spec ht).1⟩
    · rw [holding_content_ne hj] at hu
      exact .inl hu

lemma grown_pair {s s' : Store} (hs : Grown deps s s') (hrows : s'.rows = s.rows)
    {e : Envelope} {key noteKey note : Text} {previous : Option Hash} {h : Hash}
    (hh : isHash h = true) :
    Grown deps s (s'.extended (pairRows e key noteKey note previous h)) where
  named j hn := by
    rcases (named_extended_pair hh).mp hn with hn | ⟨hw, rfl⟩
    · rw [Named, hrows] at hn
      exact .inl hn
    · right
      rw [readActiveSet_extended_pair hh, if_pos hw]
  mono j hn := (named_extended_pair hh).mpr (.inl (hs.mono j hn))
  content := hs.content

lemma grown_aside {s : Store} {row : Row} (hr : counted row = none) :
    Grown deps s (s.extended [row]) where
  named j hn := by
    obtain ⟨r, hmem, hj⟩ := hn
    rcases List.mem_append.mp hmem with hmem | hmem
    · exact .inl ⟨r, hmem, hj⟩
    · rw [List.mem_singleton.mp hmem, hr] at hj
      exact nomatch hj
  mono j hn := by
    obtain ⟨r, hmem, hj⟩ := hn
    exact ⟨r, List.mem_append_left _ hmem, hj⟩
  content _ _ h := .inl h

lemma grown_step (w : World deps) (a : Action deps) :
    Grown deps w.store (step w a).store := by
  cases a with
  | record faults p e =>
    have hstore : (step w (.record faults p e)).store = (recordActiveSet faults p e w.store).2 :=
      rfl
    rw [hstore]
    rcases recordActiveSet_run faults p e w.store with ⟨x, hrun, -⟩ | ⟨h, t, hh, ht, -, hrun⟩
    · rw [hrun]
      exact grown_refl _
    · rcases hrun with ⟨-, hrun⟩ | ⟨-, x, hrun⟩
      · rw [hrun]
        exact grown_pair (grown_holding _ ht) rfl (contentHash_hex hh)
      · rw [hrun]
        exact grown_holding _ ht
  | restore faults h e =>
    have hstore : (step w (.restore faults h e)).store =
        (restoreActiveSet deps faults h e w.store).2 := rfl
    rw [hstore]
    rcases restoreActiveSet_run deps faults h e w.store with ⟨x, hrun⟩ | ⟨hh, -, -, hrun⟩
    · rw [hrun]
      exact grown_refl _
    · rw [hrun]
      exact grown_pair (grown_refl _) rfl hh
  | append row hr => exact grown_aside hr
  | verified b => exact ⟨fun _ h => .inl h, fun _ h => h, fun _ _ h => .inl h⟩

lemma kept_step (hk : Kept w) (hs : Exact w a) : Kept (step w a) where
  last := hs.named
  named h hn := by
    rcases (grown_step w a).named h hn with hn | ha
    · obtain ⟨p, hp⟩ := hk.named h hn
      exact ⟨p, List.mem_append_right _ hp⟩
    · obtain ⟨p, hp, -⟩ := hs.loads h ha
      have hload := (readActiveParamSet_some ha).mp hp
      exact ⟨p, List.mem_append_left _ (mem_activeNow.mpr ⟨ha, hload⟩)⟩
  past h p hp := by
    refine ⟨?_, hs.restores h p hp⟩
    rcases List.mem_append.mp (past_step w a ▸ hp) with hnow | hp
    · exact named_of_latest (mem_activeNow.mp hnow).1
    · exact (grown_step w a).mono h (hk.past h p hp).1
  canonical h t ht := by
    rcases (grown_step w a).content h t ht with ht | hp
    · exact hk.canonical h t ht
    · exact hp

/-- What was active loads as before when a promotion keeps the text of a hash it names. -/
lemma past_holding (hk : Kept w) {h : Hash} {t : Text}
    (hc : Named w.store h → w.store.content h = some t) {j : Hash} {p : ParamSet deps}
    (hp : (j, p) ∈ w.past) : loadVerifiedParamSet deps (w.store.holding h t) j = .ok p := by
  obtain ⟨hn, hl⟩ := hk.past j p hp
  by_cases hj : j = h
  · subst hj
    rw [holding_same (hc hn)]
    exact hl
  · rw [loadVerified_congr (holding_content_ne hj)]
    exact hl

/-- A promotion that leaves what was active as it loads writes the text that is there. -/
lemma content_of_restores (hk : Kept w) {p : ParamSet deps} {h : Hash} {t : Text}
    (ht : canonicalParamSet p = some t)
    (hr : ∀ q, (h, q) ∈ w.past → loadVerifiedParamSet deps (w.store.holding h t) h = .ok q)
    (hn : Named w.store h) : w.store.content h = some t := by
  obtain ⟨q, hq⟩ := hk.named h hn
  have hl := (hk.past h q hq).2
  obtain ⟨raw, hraw, -, -⟩ := loadVerified_ok_iff.mp hl
  obtain ⟨p', rfl⟩ := hk.canonical h raw hraw
  exact hraw.trans (congrArg some (text_of_load hraw hl ht (hr q hq)).symm)

lemma exact_record_iff (hk : Kept w) (faults : Faults) (p : ParamSet deps) (e : Envelope) :
    Exact w (.record faults p e) ↔ Faithful w (.record faults p e) := by
  rcases recordActiveSet_run faults p e w.store with ⟨x, hrun, hno⟩ | ⟨h, t, hh, ht, hf, hrun⟩
  · have hstore : (step w (.record faults p e)).store = w.store := congrArg Prod.snd hrun
    have hlast : (step w (.record faults p e)).last = w.last := by
      simp only [step, perform, hrun]
    refine iff_of_true (exact_of hk ?_ ?_ ?_ ?_) fun h t hh ht hf => absurd ⟨h, t, hh, ht, hf⟩ hno
    · rw [hstore, hlast, hk.last]
    · rw [hstore]
      exact fun h q hq => (hk.past h q hq).2
    · rw [hstore]
      intro h ha
      obtain ⟨q, -, hl⟩ := hk.active ha
      exact ⟨q, hl⟩
    · rw [hstore]
      exact fun _ _ => rfl
  · have hfaithful : Faithful w (.record faults p e) ↔
        (Named w.store h → w.store.content h = some t) ∧
        (appendable faults.append (activeSetRows e (readActiveSet w.store) h) w.store = true →
          isWriter e.author = true ∨ readActiveSet w.store = some h) := by
      constructor
      · exact fun hc => hc h t hh ht hf
      · intro hc h' t' hh' ht' _
        rw [hh, Option.some.injEq] at hh'
        rw [ht, Option.some.injEq] at ht'
        subst hh' ht'
        exact hc
    have hhex := contentHash_hex hh
    rw [hfaithful]
    rcases hrun with ⟨happ, hrun⟩ | ⟨happ, x, hrun⟩
    · have hstore : (step w (.record faults p e)).store =
          (w.store.holding h t).extended (activeSetRows e (readActiveSet w.store) h) :=
        congrArg Prod.snd hrun
      have hlast : (step w (.record faults p e)).last = some h := by
        simp only [step, perform, hrun]
      have hactive : readActiveSet (step w (.record faults p e)).store =
          if isWriter e.author then some h else readActiveSet w.store := by
        rw [hstore, activeSetRows, readActiveSet_extended_pair hhex, readActiveSet_holding]
      have hload : ∀ j, loadVerifiedParamSet deps (step w (.record faults p e)).store j =
          loadVerifiedParamSet deps (w.store.holding h t) j := by
        intro j
        rw [hstore]
        exact loadVerified_congr rfl
      constructor
      · intro hs
        refine ⟨content_of_restores hk ht fun q hq => ?_, fun _ => ?_⟩
        · rw [← hload]
          exact hs.restores h q (List.mem_append_right _ hq)
        · have hnamed := hs.named
          rw [hactive, hlast] at hnamed
          split_ifs at hnamed with hw
          · exact .inl hw
          · exact .inr hnamed
      · rintro ⟨hc, hw⟩
        have hnow : readActiveSet (step w (.record faults p e)).store = some h := by
          rw [hactive]
          split_ifs with hwriter
          · rfl
          · exact (hw happ).resolve_left hwriter
        refine exact_of hk (hnow.trans hlast.symm) ?_ ?_ ?_
        · intro j q hq
          rw [hload]
          exact past_holding hk hc hq
        · intro j hj
          rw [hnow, Option.some.injEq] at hj
          subst hj
          rw [hload]
          exact loadVerified_holding hh ht
        · intro x hx
          simp [perform, hrun] at hx
    · have hstore : (step w (.record faults p e)).store = w.store.holding h t :=
        congrArg Prod.snd hrun
      have hlast : (step w (.record faults p e)).last = w.last := by
        simp only [step, perform, hrun]
      constructor
      · intro hs
        refine ⟨content_of_restores hk ht fun q hq => ?_, fun hno => ?_⟩
        · rw [← hstore]
          exact hs.restores h q (List.mem_append_right _ hq)
        · rw [happ] at hno
          exact nomatch hno
      · rintro ⟨hc, -⟩
        refine exact_of hk ?_ ?_ ?_ ?_
        · rw [hstore, hlast, readActiveSet_holding, hk.last]
        · rw [hstore]
          exact fun j q hq => past_holding hk hc hq
        · rw [hstore]
          intro j hj
          obtain ⟨q, hq, -⟩ := hk.active hj
          exact ⟨q, past_holding hk hc hq⟩
        · rw [hstore]
          exact fun _ _ => rfl

/-- An action that keeps the content, and either the reader's hash or returns the one it names. -/
lemma exact_of_content (hk : Kept w) (hc : (step w a).store.content = w.store.content)
    (ha : readActiveSet (step w a).store = readActiveSet w.store ∧ (step w a).last = w.last ∨
      ∃ h q, (perform w.store a).1 = some (.ok h) ∧ readActiveSet (step w a).store = some h ∧
        loadVerifiedParamSet deps w.store h = .ok q) : Exact w a := by
  have hload : ∀ j, loadVerifiedParamSet deps (step w a).store j =
      loadVerifiedParamSet deps w.store j := fun j => loadVerified_congr (congrFun hc j)
  have hpast : ∀ h p, (h, p) ∈ w.past → loadVerifiedParamSet deps (step w a).store h = .ok p := by
    intro h p hp
    rw [hload]
    exact (hk.past h p hp).2
  rcases ha with ⟨ha, hlast⟩ | ⟨h, q, hok, hnow, hq⟩
  · refine exact_of hk (by rw [ha, hlast, hk.last]) hpast ?_ fun _ _ => ha
    intro h hh
    obtain ⟨p, hp, -⟩ := hk.active (ha ▸ hh)
    exact ⟨p, hpast h p hp⟩
  · refine exact_of hk (by rw [hnow, step, hok]) hpast ?_ ?_
    · intro j hj
      rw [hnow, Option.some.injEq] at hj
      subst hj
      exact ⟨q, by rw [hload, hq]⟩
    · intro x hx
      rw [hok] at hx
      simp at hx

/-- **One action** keeps the promise exactly where its condition holds. -/
theorem exact_iff (hk : Kept w) (a : Action deps) : Exact w a ↔ Faithful w a := by
  cases a with
  | record faults p e => exact exact_record_iff hk faults p e
  | restore faults h e =>
    refine iff_of_true ?_ trivial
    rcases restoreActiveSet_run deps faults h e w.store with
      ⟨x, hrun⟩ | ⟨hh, hw, ⟨q, hq⟩, hrun⟩
    · have hstore : (step w (.restore faults h e)).store = w.store := congrArg Prod.snd hrun
      refine exact_of_content hk (by rw [hstore]) (.inl ⟨by rw [hstore], ?_⟩)
      simp only [step, perform, hrun]
    · have hstore : (step w (.restore faults h e)).store =
          w.store.extended (rollbackRows e (readActiveSet w.store) h) := congrArg Prod.snd hrun
      refine exact_of_content hk (by rw [hstore]; rfl) (.inr ⟨h, q, ?_, ?_, hq⟩)
      · simp only [perform, hrun]
      · rw [hstore, rollbackRows, readActiveSet_extended_pair hh, if_pos hw]
  | append row hr =>
    refine iff_of_true (exact_of_content hk rfl (.inl ⟨?_, rfl⟩)) trivial
    have hlatest : latest [row] = none := by simp [latest, hr]
    show latest (w.store.rows ++ [row]) = latest w.store.rows
    rw [latest_append, hlatest]
    rfl
  | verified b => exact iff_of_true (exact_of_content hk rfl (.inl ⟨rfl, rfl⟩)) trivial

end Steps

/-- **When promotion and rollback are exact.** A run of promotions, rollbacks and rows of other
writers keeps the promise in all its actions exactly when each promotion that names a hash the
ledger names already writes the text that is there, and each accepted one is by a writer the reader
counts, or of the active set. -/
theorem active_set_exact_iff (deps : CandidateDeps) (as : List (Action deps)) :
    Runs.Along step Exact ({} : World deps) as ↔ Runs.Along step Faithful ({} : World deps) as :=
  Runs.along_iff_along (P := Exact) (C := Faithful) (J := Kept) (fun _ a h => exact_iff h a)
    (fun _ _ h hs => kept_step h hs) kept_start as

namespace Sample

/-- The digest of the text of no overrides. -/
def digest : CandidateDeps where
  accepts _ _ _ := true
  sha256 t :=
    if t = "\x7b\"exits\":\x7b\x7d,\"filter\":\x7b\x7d\x7d".toList then
      "d6c9cd2aa6bebb78a249d6fe42fc519d46ac85bcf4af10f96438b054a2990c93".toList
    else List.replicate 64 '0'
  sha256_hex t := by
    split_ifs
    · decide
    · decide

def desk : Envelope where
  author := "desk".toList
  ts := "2026-01-01T00:00:00.000000Z".toList
  source := "paper".toList
  correlationId := "c".toList

/-- `{"exits":{},"filter":{}}`. -/
def noOverrideText : Text := "\x7b\"exits\":\x7b\x7d,\"filter\":\x7b\x7d\x7d".toList

lemma contentText_noOverride (deps : CandidateDeps) :
    contentText (noOverride deps) = some noOverrideText := by
  have hle : "exits".toList ≤ "filter".toList := by decide
  have h : CanonicalJson.canonicalJson [("exits".toList, .obj []), ("filter".toList, .obj [])] =
      .ok noOverrideText := by
    rw [CanonicalJson.canonicalJson]
    simp only [CanonicalJson.normalize, CanonicalJson.normalizeMembers, Except.map, bind,
      Except.bind, CanonicalJson.sortKeys, CanonicalJson.sortKeysMembers]
    rw [CanonicalJson.sortMembers_pair_le hle]
    simp only [CanonicalJson.sortMembers, List.mergeSort_nil]
    decide
  rw [contentText]
  simp only [noOverride, normalizedMapping, Option.bind_eq_bind, Option.bind_some]
  rw [h]
  rfl

lemma canonical_noOverride (deps : CandidateDeps) :
    canonicalParamSet (noOverride deps) = some (orderedText none none) := by
  have hgt : ¬ "filter".toList ≤ "exits".toList := by decide
  have htext : dumpedText (noOverride deps) = orderedText none none := by
    rw [dumpedText, modelDump, orderedText, CanonicalJson.sortKeys]
    simp only [CanonicalJson.sortKeysMembers, noOverride, optionalObject, CanonicalJson.sortKeys]
    rw [CanonicalJson.sortMembers_pair_gt hgt]
  have hdecode : decodeParamSet deps (orderedText none none) = some (noOverride deps) := by
    rw [decodeParamSet, orderedText, Json.loads_dumps]
    rfl
  have hhash : contentHash (noOverride deps) = some (deps.sha256 noOverrideText) := by
    rw [contentHash, contentText_noOverride]
    rfl
  rw [canonicalParamSet, htext, hdecode]
  simp [hhash]

end Sample

/-- A promotion written by the desk is accepted, and the reader does not see it. -/
theorem desk_promotion_not_read :
    ¬ Runs.Along step Exact ({} : World Sample.digest)
      [.record {} (noOverride Sample.digest) Sample.desk] := by
  rintro ⟨h, -⟩
  have hfaithful := (exact_iff kept_start _).mp h
  have hhash : contentHash (noOverride Sample.digest) =
      some (Sample.digest.sha256 Sample.noOverrideText) := by
    rw [contentHash, Sample.contentText_noOverride]
    rfl
  have hwriter := (hfaithful _ _ hhash (Sample.canonical_noOverride _) rfl).2 (by decide +kernel)
  revert hwriter
  decide

end ActiveSet

end PumpGrok
