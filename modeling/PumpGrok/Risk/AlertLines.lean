import PumpGrok.Risk.KillRecords

/-!
What the process does with the lines it reads: which of them reach the latch, and when the latch
asks for a flatten the process goes by.
-/

namespace PumpGrok

namespace PyText

variable {t : Text}

lemma takeWord_fst (t : Text) : (takeWord t).1 = t.takeWhile fun c => !isSpace c := by
  rw [takeWord, List.span_eq_takeWhile_dropWhile]

lemma takeWord_snd (t : Text) : (takeWord t).2 = t.dropWhile fun c => !isSpace c := by
  rw [takeWord, List.span_eq_takeWhile_dropWhile]

/-- A text is its stripped part and trailing blanks. -/
lemma exists_rstrip (t : Text) :
    ∃ blanks, t = rstrip t ++ blanks ∧ ∀ c ∈ blanks, isSpace c = true := by
  refine ⟨(t.reverse.takeWhile isSpace).reverse, ?_, fun c hc => ?_⟩
  · rw [rstrip, ← List.reverse_append, List.takeWhile_append_dropWhile, List.reverse_reverse]
  · exact List.mem_takeWhile_imp (List.mem_reverse.mp hc)

/-- Trailing blanks do not change the first word. -/
lemma takeWord_rstrip (t : Text) : (takeWord (rstrip t)).1 = (takeWord t).1 := by
  obtain ⟨blanks, ht, hb⟩ := exists_rstrip t
  have hnil : (blanks.takeWhile fun c => !isSpace c) = [] := by
    rcases blanks with - | ⟨c, r⟩
    · rfl
    · simp [hb c]
  rw [takeWord_fst, takeWord_fst]
  conv_rhs => rw [ht, List.takeWhile_append, hnil, List.append_nil]
  split_ifs with h
  · exact List.IsPrefix.eq_of_length (List.takeWhile_prefix _) h
  · rfl

lemma lstrip_lstrip (t : Text) : lstrip (lstrip t) = lstrip t := by
  unfold lstrip
  induction t with
  | nil => rfl
  | cons c r ih =>
    by_cases hc : isSpace c = true
    · simp [hc, ih]
    · simp [hc]

lemma dropPrefix_eq_some {p : Text} {r : Text} (h : dropPrefix p t = some r) : t = p ++ r := by
  unfold dropPrefix at h
  split_ifs at h with hp
  cases h
  obtain ⟨r, rfl⟩ := List.isPrefixOf_iff_prefix.mp hp
  simp

lemma dropSpaces_eq_some {r : Text} (h : dropSpaces t = some r) :
    ∃ c q, t = c :: q ∧ isSpace c = true ∧ r = lstrip q := by
  rcases t with - | ⟨c, q⟩
  · cases h
  · simp only [dropSpaces] at h
    split_ifs at h with hc
    exact ⟨c, q, rfl, hc, (Option.some.inj h).symm⟩

/-- The first word of a word and what follows after a blank. -/
lemma takeWord_append {w : Text} (hw : ∀ c ∈ w, isSpace c = false) {c : Char}
    (hc : isSpace c = true)
    (q : Text) : takeWord (w ++ c :: q) = (w, c :: q) := by
  have h₁ : (takeWord (w ++ c :: q)).1 = w := by
    rw [takeWord_fst, List.takeWhile_append_of_pos fun a ha => by simp [hw a ha]]
    simp [hc]
  have h₂ : (takeWord (w ++ c :: q)).2 = c :: q := by
    rw [takeWord_snd, List.dropWhile_append_of_pos fun a ha => by simp [hw a ha]]
    simp [hc]
  exact Prod.ext h₁ h₂

end PyText

open PyText

/-- A plain alert's reason does not start with the flag's word. -/
lemma parseKillLine_plain {raw reason : Text} (h : parseKillLine raw = some (false, reason)) :
    (takeWord reason).1 ≠ "FLATTEN".toList := by
  unfold parseKillLine at h
  obtain ⟨found, hfound, heq⟩ := Option.map_eq_some_iff.mp h
  simp only [Prod.mk.injEq, decide_eq_false_iff_not] at heq
  obtain ⟨hsecond, hreason⟩ := heq
  unfold killLineReason at hfound
  obtain ⟨rest₀, hkill, hfound⟩ := Option.bind_eq_some_iff.mp hfound
  obtain ⟨rest, hspaces, hfound⟩ := Option.bind_eq_some_iff.mp hfound
  have hline := dropPrefix_eq_some hkill
  obtain ⟨c, q, rfl, hc, rfl⟩ := dropSpaces_eq_some hspaces
  have hwords : takeWord (strip raw) = ("KILL".toList, c :: q) := by
    rw [hline]
    exact PyText.takeWord_append (by simp [isSpace]) hc q
  have hafter : lstrip (c :: q) = lstrip q := by simp [lstrip, hc]
  rw [hwords, hafter] at hsecond
  split at hfound
  · rename_i found' hflat
    obtain ⟨r, hprefix, hflat⟩ := Option.bind_eq_some_iff.mp hflat
    obtain ⟨r', hblank, -⟩ := Option.bind_eq_some_iff.mp hflat
    obtain ⟨c', q', rfl, hc', -⟩ := dropSpaces_eq_some hblank
    rw [dropPrefix_eq_some hprefix, PyText.takeWord_append (by simp [isSpace]) hc'] at hsecond
    exact absurd rfl hsecond
  · unfold killReason at hfound
    split_ifs at hfound
    cases hfound
    rw [← hreason, strip, lstrip_lstrip, takeWord_rstrip]
    exact hsecond

/-! ### Latches that ask for a flatten -/

/-- What a latch's text asks for. -/
def latchRequests (content : Text) : Bool := (fileState (latchLine content)).flattenRequested

lemma latchRequests_flatten (reason : Text) : latchRequests (killFileText reason true) = true := by
  unfold latchRequests
  simp only [killFileText, if_true]
  rw [latchLine_flatten]
  split_ifs
  · decide
  · rw [fileState_flatten]

lemma latchLine_flatten_word (reason : Text) :
    (takeWord (latchLine (killFileText reason true))).1 = "FLATTEN".toList := by
  simp only [killFileText, if_true]
  rw [latchLine_flatten]
  split_ifs
  · decide
  · rw [show "FLATTEN ".toList = "FLATTEN".toList ++ [' '] by simp, List.append_assoc,
      List.singleton_append, PyText.takeWord_append (by simp [isSpace]) (by simp [isSpace])]

namespace KillSwitch

variable {k k' : KillSwitch}

/-- Something outside the channel and the ledger keeps the switch set. -/
def engaged (k : KillSwitch) : Bool := envEngaged k.envStart || k.isFile

/-- The latch asks for a flatten, and it is not the text of a plain line this process wrote. -/
def demands (k : KillSwitch) : Bool :=
  k.fileRequestsFlatten && match k.alertLatch with
    | some (false, reason) => k.firstLine ≠ reason
    | _ => true

lemma firstLine_of_content {content : Text} (h : k.file.content = some content) :
    k.firstLine = latchLine content := by
  rw [firstLine, h]
  rfl

lemma fileRequestsFlatten_iff : k.fileRequestsFlatten = true ↔
    k.hasPath = true ∧ ∃ content, k.file.content = some content ∧ latchRequests content = true := by
  unfold fileRequestsFlatten isFile
  rcases hc : k.file.content with - | content
  · simp
  · rw [firstLine_of_content hc]
    simp only [Option.isSome_some, Bool.and_true, Option.getD_some, Bool.and_eq_true,
      Option.some.injEq, exists_eq_left']
    constructor
    · rintro ⟨⟨hp, -⟩, hf⟩
      exact ⟨hp, hf⟩
    · rintro ⟨hp, hf⟩
      refine ⟨⟨hp, ?_⟩, hf⟩
      rw [Bool.not_eq_true', List.isEmpty_eq_false_iff]
      intro hn
      rw [latchRequests, latchLine, hn] at hf
      revert hf
      decide

lemma isFile_of_requests (h : k.fileRequestsFlatten = true) : k.isFile = true := by
  obtain ⟨hp, content, hc, -⟩ := fileRequestsFlatten_iff.mp h
  simp [isFile, hp, hc]

lemma demands_iff : k.demands = true ↔
    k.fileRequestsFlatten = true ∧ ∀ reason, k.alertLatch = some (false, reason) →
      k.firstLine ≠ reason := by
  unfold demands
  rw [Bool.and_eq_true]
  refine and_congr_right fun _ => ?_
  rcases k.alertLatch with - | ⟨- | -, reason⟩ <;> simp

lemma fileState_active (line : Text) : (fileState line).active = true := by
  unfold fileState
  split_ifs <;> rfl

/-- **A latch that asks for a flatten** is what the process goes by, the environment set or not. -/
lemma engagedState_demands (h : k.demands = true) (events : List Event) :
    (k.engagedState events).1.active = true ∧
      (k.engagedState events).1.flattenRequested = true := by
  obtain ⟨hf, hplain⟩ := demands_iff.mp h
  obtain ⟨hp, content, hc, hr⟩ := fileRequestsFlatten_iff.mp hf
  have hline := firstLine_of_content hc
  unfold engagedState
  split_ifs with henv hfile
  · exact ⟨rfl, hf⟩
  · split
    · rename_i flatten reason hlatch
      split_ifs with hmatch
      · refine ⟨rfl, ?_⟩
        cases flatten with
        | true => rfl
        | false => exact absurd hmatch (hplain reason hlatch)
      · rw [hline]
        exact ⟨fileState_active _, hr⟩
    · rw [hline]
      exact ⟨fileState_active _, hr⟩
  · exact absurd (isFile_of_requests hf) hfile

lemma poll_demands (h : k.demands = true) (events : List Event) :
    (k.poll events).1.active = true ∧ (k.poll events).1.flattenRequested = true := by
  obtain ⟨ha, hr⟩ := engagedState_demands h events
  unfold poll
  rcases hs : k.engagedState events with ⟨state, k'⟩
  rw [hs] at ha hr
  simp only at ha hr
  simp [ha, hr]

/-- A poll changes only what the process remembers of the latch. -/
lemma poll_frame (k : KillSwitch) (events : List Event) :
    ∃ latch escalated, (k.poll events).2 =
        { k with alertLatch := latch, flattenEscalated := escalated } ∧
      (latch = k.alertLatch ∨ latch = none) ∧
      (escalated = k.flattenEscalated ∨ escalated = false) := by
  have hengaged : ∃ latch, (k.engagedState events).2 = { k with alertLatch := latch } ∧
      (latch = k.alertLatch ∨ latch = none) := by
    unfold engagedState
    split_ifs
    · exact ⟨_, rfl, .inl rfl⟩
    · split
      · split_ifs <;> exact ⟨_, rfl, .inl rfl⟩
      · exact ⟨_, rfl, .inl rfl⟩
    · split
      · exact ⟨_, rfl, .inl rfl⟩
      · exact ⟨_, rfl, .inr rfl⟩
  obtain ⟨latch, hk, hlatch⟩ := hengaged
  unfold poll
  rcases hs : k.engagedState events with ⟨state, k'⟩
  rw [hs] at hk
  simp only at hk
  subst hk
  dsimp only
  split_ifs
  · exact ⟨latch, false, rfl, hlatch, .inr rfl⟩
  · exact ⟨latch, _, rfl, hlatch, .inl rfl⟩
  · exact ⟨latch, _, rfl, hlatch, .inl rfl⟩

/-- Set by the environment, the latch or a pending line, the switch polls as set. -/
lemma poll_active (h : k.engaged = true ∨ k.pendingState.isSome = true) (events : List Event) :
    (k.poll events).1.active = true := by
  have hactive : (k.engagedState events).1.active = true := by
    unfold engagedState
    split_ifs with henv hfile
    · rfl
    · split
      · split_ifs
        · rfl
        · exact fileState_active _
      · exact fileState_active _
    · have hpending : k.pendingState.isSome = true := by simpa [engaged, henv, hfile] using h
      obtain ⟨state, hstate⟩ := Option.isSome_iff_exists.mp hpending
      rw [hstate]
      unfold pendingState at hstate
      obtain ⟨p, -, rfl⟩ := Option.map_eq_some_iff.mp hstate
      rfl
  unfold poll
  rcases hs : k.engagedState events with ⟨state, k'⟩
  rw [hs] at hactive
  dsimp only at hactive ⊢
  simp only [hactive, Bool.not_true, Bool.false_eq_true, if_false]
  split_ifs
  · rfl
  · exact hactive

lemma demands_of_content {content : Text} (hp : k.hasPath = true)
    (hc : k.file.content = some content) (hr : latchRequests content = true)
    (hl : ∀ reason, k.alertLatch = some (false, reason) → latchLine content ≠ reason) :
    k.demands = true := by
  rw [demands_iff, firstLine_of_content hc]
  exact ⟨fileRequestsFlatten_iff.mpr ⟨hp, content, hc, hr⟩, hl⟩

lemma isFile_of_content {content : Text} (hp : k.hasPath = true)
    (hc : k.file.content = some content) : k.isFile = true := by
  simp [isFile, hp, hc]

/-! ### One line -/

lemma writeText_cases (text : Text) (file : LatchFile) :
    (∃ file', file.writeText text = (true, file') ∧ file'.content = some text ∧
      (file.outcomes = [] → file'.outcomes = [])) ∨
    ∃ file', file.writeText text = (false, file') ∧ file.outcomes ≠ [] ∧
      (file'.content = file.content ∨ ∃ n rest, file.outcomes = .breaksOff n :: rest) := by
  unfold LatchFile.writeText
  rcases ho : file.outcomes with - | ⟨- | - | n, rest⟩
  · exact .inl ⟨_, rfl, rfl, fun _ => rfl⟩
  · exact .inl ⟨_, rfl, rfl, by simp⟩
  · exact .inr ⟨_, rfl, by simp, .inl rfl⟩
  · exact .inr ⟨_, rfl, by simp, .inr ⟨n, rest, rfl⟩⟩

lemma replaceText_cases (text : Text) (file : LatchFile) :
    (∃ file', file.replaceText text = (true, file') ∧ file'.content = some text ∧
      (file.outcomes = [] → file'.outcomes = [])) ∨
    ∃ outcomes, file.replaceText text = (false, { file with outcomes := outcomes }) ∧
      file.outcomes ≠ [] := by
  unfold LatchFile.replaceText
  rcases ho : file.outcomes with - | ⟨- | - | n, rest⟩
  · exact .inl ⟨_, rfl, rfl, fun _ => rfl⟩
  · exact .inl ⟨_, rfl, rfl, by simp⟩
  · exact .inr ⟨_, rfl, by simp⟩
  · exact .inr ⟨_, rfl, by simp⟩

/-- Saving a pending line is the write of the latch file, which the memory follows if it lands. -/
lemma savePending_of_write {raw reason : Text} {flatten landed : Bool} {file : LatchFile}
    (hpath : k.hasPath = true) (hl : k.pendingLine = some raw)
    (hparse : parseKillLine raw = some (flatten, reason))
    (hw : k.file.writeText (killFileText reason flatten) = (landed, file)) :
    k.savePending = (landed,
      if landed = true then
        { k with file := file, alertLatch := some (flatten, reason), pendingLine := none }
      else { k with file := file }) := by
  unfold savePending
  rw [hl]
  simp only
  rw [if_neg (by simp [hpath]), hparse]
  dsimp only
  rw [hw]
  cases landed <;> rfl

lemma savePending_cases {raw reason : Text} {flatten : Bool} (hpath : k.hasPath = true)
    (hl : k.pendingLine = some raw) (hparse : parseKillLine raw = some (flatten, reason)) :
    (∃ file, k.savePending = (true,
        { k with file := file, alertLatch := some (flatten, reason), pendingLine := none }) ∧
      file.content = some (killFileText reason flatten) ∧
      (k.file.outcomes = [] → file.outcomes = [])) ∨
    ∃ file, k.savePending = (false, { k with file := file }) ∧ k.file.outcomes ≠ [] ∧
      (file.content = k.file.content ∨ ∃ n rest, k.file.outcomes = .breaksOff n :: rest) := by
  rcases writeText_cases (killFileText reason flatten) k.file with ⟨file, hw, hc⟩ | ⟨file, hw, ho⟩
  · exact .inl ⟨file, savePending_of_write hpath hl hparse hw, hc⟩
  · exact .inr ⟨file, savePending_of_write hpath hl hparse hw, ho⟩

lemma savePending_fst {raw reason : Text} {flatten : Bool} (hpath : k.hasPath = true)
    (hl : k.pendingLine = some raw) (hparse : parseKillLine raw = some (flatten, reason)) :
    k.savePending.1 = (k.file.writeText (killFileText reason flatten)).1 := by
  exact congrArg Prod.fst (savePending_of_write hpath hl hparse Prod.mk.eta.symm)

/-- What one line does, and whether reading goes on. -/
inductive LineMove (raw : Text) (k : KillSwitch) : Bool → KillSwitch → Prop
  | aside (hp : parseKillLine raw = none) : LineMove raw k true k
  | ignored {flatten : Bool} {reason : Text} (hp : parseKillLine raw = some (flatten, reason))
      (he : k.engaged = true) (hf : flatten = true → k.flattenEscalated = true) :
      LineMove raw k true k
  | escalated {reason : Text} {file : LatchFile} (hp : parseKillLine raw = some (true, reason))
      (he : k.engaged = true) (hc : file.content = some (killFileText reason true))
      (ho : k.file.outcomes = [] → file.outcomes = []) :
      LineMove raw k true
        { k with file := file, alertLatch := some (true, reason), flattenEscalated := true }
  | held {reason : Text} {outcomes : List WriteOutcome}
      (hp : parseKillLine raw = some (true, reason)) (he : k.engaged = true)
      (ho : k.file.outcomes ≠ []) :
      LineMove raw k false { k with file := { k.file with outcomes := outcomes } }
  | saved {flatten : Bool} {reason : Text} {file : LatchFile}
      (hp : parseKillLine raw = some (flatten, reason)) (he : k.engaged = false)
      (hc : file.content = some (killFileText reason flatten))
      (ho : k.file.outcomes = [] → file.outcomes = []) :
      LineMove raw k true
        { k with file := file, alertLatch := some (flatten, reason), pendingLine := none }
  | pending {flatten : Bool} {reason : Text} {file : LatchFile}
      (hp : parseKillLine raw = some (flatten, reason)) (he : k.engaged = false)
      (ho : k.file.outcomes ≠ []) :
      LineMove raw k false { k with file := file, pendingLine := some raw }

theorem absorbLine_move (hpath : k.hasPath = true) (raw : Text) :
    LineMove raw k (absorbLine raw k).1 (absorbLine raw k).2 := by
  unfold absorbLine
  rcases hparse : parseKillLine raw with - | ⟨flatten, reason⟩
  · exact .aside hparse
  · simp only
    by_cases he : (envEngaged k.envStart || k.isFile) = true
    · rw [if_pos he]
      split_ifs with hf
      · simp only [Bool.and_eq_true, Bool.not_eq_true'] at hf
        obtain ⟨rfl, -⟩ := hf
        unfold escalate
        rw [if_pos hpath]
        rcases replaceText_cases (killFileText reason true) k.file with
          ⟨file, hw, hc, ho⟩ | ⟨os, hw, ho⟩
        · rw [hw]
          exact .escalated hparse he hc ho
        · rw [hw]
          exact .held hparse he ho
      · refine .ignored hparse he fun h => ?_
        simpa [h] using hf
    · rw [if_neg he, if_neg (by simp [hpath])]
      rw [Bool.not_eq_true] at he
      rcases savePending_cases (k := { k with pendingLine := some raw }) hpath rfl hparse with
        ⟨file, hw, hc, ho⟩ | ⟨file, hw, ho, -⟩
      · rw [hw]
        exact .saved hparse he hc ho
      · rw [hw]
        exact .pending hparse he ho

/-- The process remembers only lines it parsed. -/
structure Recalls (k : KillSwitch) : Prop where
  latch : ∀ reason, k.alertLatch = some (false, reason) →
    (takeWord reason).1 ≠ "FLATTEN".toList
  pending : ∀ raw, k.pendingLine = some raw → (parseKillLine raw).isSome = true

/-- Set by the environment, the latch or a pending line. -/
def set (k : KillSwitch) : Bool := k.engaged || k.pendingState.isSome

/-- An escalation that still stands: the latch demands the flatten. -/
def Stands (k : KillSwitch) : Prop := k.flattenEscalated = true → k.demands = true

/-- What reading lines keeps. -/
structure Absorbs (k k' : KillSwitch) : Prop where
  hasPath : k'.hasPath = k.hasPath
  envStart : k'.envStart = k.envStart
  alerts : k'.alerts = k.alerts
  isFile : k.isFile = true → k'.isFile = true ∧ k'.pendingLine = k.pendingLine
  demands : k.demands = true → k'.demands = true
  stands : k.Stands → k'.Stands
  recalls : k.Recalls → k'.Recalls
  set : k.set = true → k'.set = true

lemma Absorbs.refl (k : KillSwitch) : Absorbs k k :=
  ⟨rfl, rfl, rfl, fun h => ⟨h, rfl⟩, id, id, id, id⟩

lemma Absorbs.trans {k'' : KillSwitch} (h : Absorbs k k') (h' : Absorbs k' k'') :
    Absorbs k k'' where
  hasPath := h'.hasPath.trans h.hasPath
  envStart := h'.envStart.trans h.envStart
  alerts := h'.alerts.trans h.alerts
  isFile hf := ⟨(h'.isFile (h.isFile hf).1).1,
    (h'.isFile (h.isFile hf).1).2.trans (h.isFile hf).2⟩
  demands := h'.demands ∘ h.demands
  stands := h'.stands ∘ h.stands
  recalls := h'.recalls ∘ h.recalls
  set := h'.set ∘ h.set

lemma isFile_of_demands (h : k.demands = true) : k.isFile = true :=
  isFile_of_requests (demands_iff.mp h).1

lemma set_of_isFile (h : k.isFile = true) : k.set = true := by
  simp [set, engaged, h]

lemma LineMove.absorbs {raw : Text} {b : Bool} (hpath : k.hasPath = true)
    (h : LineMove raw k b k') : Absorbs k k' := by
  cases h with
  | aside hp => exact .refl k
  | ignored hp he hf => exact .refl k
  | @escalated reason file hp he hc ho =>
    have hd : KillSwitch.demands
        { k with file := file, alertLatch := some (true, reason), flattenEscalated := true } =
          true :=
      demands_of_content hpath hc (latchRequests_flatten reason) fun r hr => by cases hr
    have hf := isFile_of_demands hd
    exact
      { hasPath := rfl
        envStart := rfl
        alerts := rfl
        isFile := fun _ => ⟨hf, rfl⟩
        demands := fun _ => hd
        stands := fun _ _ => hd
        recalls := fun hr => ⟨fun r h => (by cases h), hr.pending⟩
        set := fun _ => set_of_isFile hf }
  | @held reason outcomes hp he ho =>
    exact
      { hasPath := rfl
        envStart := rfl
        alerts := rfl
        isFile := fun hf => ⟨hf, rfl⟩
        demands := id
        stands := id
        recalls := fun hr => ⟨hr.latch, hr.pending⟩
        set := id }
  | @saved flatten reason file hp he hc ho =>
    have hfile : k.isFile = false := by
      simp only [engaged, Bool.or_eq_false_iff] at he
      exact he.2
    have hdemands : ¬ k.demands = true := fun hd => by simp [isFile_of_demands hd] at hfile
    exact
      { hasPath := rfl
        envStart := rfl
        alerts := rfl
        isFile := fun hf => by simp [hfile] at hf
        demands := fun hd => absurd hd hdemands
        stands := fun hs hesc => absurd (hs hesc) hdemands
        recalls := fun _ =>
          { latch := fun r h => by
              cases h
              exact parseKillLine_plain hp
            pending := fun r h => by cases h }
        set := fun _ => set_of_isFile (isFile_of_content hpath hc) }
  | @pending flatten reason file hp he ho =>
    have hfile : k.isFile = false := by
      simp only [engaged, Bool.or_eq_false_iff] at he
      exact he.2
    have hdemands : ¬ k.demands = true := fun hd => by simp [isFile_of_demands hd] at hfile
    exact
      { hasPath := rfl
        envStart := rfl
        alerts := rfl
        isFile := fun hf => by simp [hfile] at hf
        demands := fun hd => absurd hd hdemands
        stands := fun hs hesc => absurd (hs hesc) hdemands
        recalls := fun hr =>
          { latch := hr.latch
            pending := fun r h => by
              cases h
              simp [hp] }
        set := fun _ => by simp [set, pendingState, hp] }

/-! ### The lines of a poll -/

lemma absorbLines_cons (raw : Text) (rest : List Text) (k : KillSwitch) :
    absorbLines (raw :: rest) k =
      if (absorbLine raw k).1 then absorbLines rest (absorbLine raw k).2
      else (false, (absorbLine raw k).2) := by
  rw [absorbLines]
  rcases absorbLine raw k with ⟨- | -, k'⟩ <;> rfl

/-- The lines read to their end, before one whose write fails. -/
def handledLines : List Text → KillSwitch → List Text
  | [], _ => []
  | raw :: rest, k =>
    if (absorbLine raw k).1 then raw :: handledLines rest (absorbLine raw k).2 else []

lemma handledLines_subset (lines : List Text) (k : KillSwitch) : handledLines lines k ⊆ lines := by
  induction lines generalizing k with
  | nil => exact List.Subset.refl _
  | cons raw rest ih =>
    rw [handledLines]
    split_ifs
    · exact List.cons_subset_cons raw (ih _)
    · exact List.nil_subset _

lemma handledLines_eq {lines : List Text} (h : (absorbLines lines k).1 = true) :
    handledLines lines k = lines := by
  induction lines generalizing k with
  | nil => rfl
  | cons raw rest ih =>
    rw [absorbLines_cons] at h
    rw [handledLines]
    split_ifs at h ⊢ with hb
    rw [ih h]

lemma absorbLines_absorbs (lines : List Text) (hpath : k.hasPath = true) :
    Absorbs k (absorbLines lines k).2 := by
  induction lines generalizing k with
  | nil => exact .refl k
  | cons raw rest ih =>
    have hmove := (absorbLine_move hpath raw).absorbs hpath
    rw [absorbLines_cons]
    split_ifs
    · exact hmove.trans (ih (hmove.hasPath.trans hpath))
    · exact hmove

/-- What a handled line leaves behind. -/
structure Handled (k' : KillSwitch) (flatten : Bool) : Prop where
  latched : k'.isFile = true ∨ flatten = false ∧ envEngaged k'.envStart = true
  demands : flatten = true → k'.demands = true

lemma Handled.mono {k'' : KillSwitch} {flatten : Bool} (h : Handled k' flatten)
    (ha : Absorbs k' k'') : Handled k'' flatten where
  latched :=
    h.latched.imp (fun hf => (ha.isFile hf).1) fun ⟨hf, he⟩ => ⟨hf, by rw [ha.envStart, he]⟩
  demands hf := ha.demands (h.demands hf)

lemma LineMove.handled {raw reason : Text} {flatten : Bool} (hpath : k.hasPath = true)
    (hs : flatten = true → k.Stands) (h : LineMove raw k true k')
    (hp : parseKillLine raw = some (flatten, reason)) : Handled k' flatten := by
  cases h with
  | aside hn => simp [hn] at hp
  | ignored hp' he hf =>
    cases hp.symm.trans hp'
    have hd : flatten = true → k.demands = true := fun h => hs h (hf h)
    refine ⟨?_, hd⟩
    rcases flatten with - | -
    · simp only [engaged, Bool.or_eq_true] at he
      exact he.symm.imp_right fun h => ⟨rfl, h⟩
    · exact .inl (isFile_of_demands (hd rfl))
  | @escalated r file hp' he hc ho =>
    cases hp.symm.trans hp'
    exact ⟨.inl (isFile_of_content hpath hc), fun _ =>
      demands_of_content hpath hc (latchRequests_flatten _) fun r hr => by cases hr⟩
  | @saved f r file hp' he hc ho =>
    cases hp.symm.trans hp'
    refine ⟨.inl (isFile_of_content hpath hc), fun hf => ?_⟩
    subst hf
    exact demands_of_content hpath hc (latchRequests_flatten _) fun r hr => by cases hr

/-- **Every handled line** is in the latch, or found the environment set. -/
theorem absorbLines_handled {lines : List Text} (hpath : k.hasPath = true)
    (hs : (∃ raw ∈ lines, (parseKillLine raw).any (·.1) = true) → k.Stands)
    {raw reason : Text} {flatten : Bool} (hr : raw ∈ handledLines lines k)
    (hp : parseKillLine raw = some (flatten, reason)) :
    Handled (absorbLines lines k).2 flatten := by
  induction lines generalizing k with
  | nil => simp [handledLines] at hr
  | cons raw' rest ih =>
    have hmove := absorbLine_move hpath raw'
    have hkeep := hmove.absorbs hpath
    rw [handledLines] at hr
    rw [absorbLines_cons]
    split_ifs at hr ⊢ with hb
    · rw [hb] at hmove
      rcases List.mem_cons.mp hr with rfl | hr
      · have hflat : flatten = true → k.Stands := fun hf =>
          hs ⟨raw, List.mem_cons_self, by simp [hp, hf]⟩
        exact (hmove.handled hpath hflat hp).mono
          (absorbLines_absorbs rest (hkeep.hasPath.trans hpath))
      · have hrest : (∃ raw ∈ rest, (parseKillLine raw).any (·.1) = true) →
            (absorbLine raw' k).2.Stands := fun ⟨r, hr, hf⟩ =>
          hkeep.stands (hs ⟨r, List.mem_cons_of_mem _ hr, hf⟩)
        exact ih (hkeep.hasPath.trans hpath) hrest hr
    · simp at hr

lemma LineMove.outcomes {raw : Text} (h : LineMove raw k true k') (hn : k.file.outcomes = []) :
    k'.file.outcomes = [] := by
  cases h with
  | aside hp => exact hn
  | ignored hp he hf => exact hn
  | escalated hp he hc ho => exact ho hn
  | saved hp he hc ho => exact ho hn

lemma LineMove.stopped {raw : Text} (h : LineMove raw k false k') :
    k'.set = true ∧ k.file.outcomes ≠ [] := by
  cases h with
  | held hp he ho =>
    refine ⟨?_, ho⟩
    simp only [set, Bool.or_eq_true]
    exact .inl he
  | @pending f r file hp he ho => exact ⟨by simp [set, pendingState, hp], ho⟩

/-- Reading stops early only with the switch set. -/
lemma absorbLines_stopped {lines : List Text} (hpath : k.hasPath = true)
    (h : (absorbLines lines k).1 = false) :
    (absorbLines lines k).2.set = true ∧ k.file.outcomes ≠ [] := by
  induction lines generalizing k with
  | nil => cases h
  | cons raw rest ih =>
    have hmove := absorbLine_move hpath raw
    have hkeep := hmove.absorbs hpath
    rw [absorbLines_cons] at h ⊢
    split_ifs at h ⊢ with hb
    · obtain ⟨hset, ho⟩ := ih (hkeep.hasPath.trans hpath) h
      rw [hb] at hmove
      exact ⟨hset, fun hn => ho (hmove.outcomes hn)⟩
    · rw [Bool.not_eq_true] at hb
      rw [hb] at hmove
      exact hmove.stopped

lemma LineMove.set_of_kill {raw : Text} {b : Bool} (hpath : k.hasPath = true)
    (h : LineMove raw k b k') (hp : (parseKillLine raw).isSome = true) : k'.set = true := by
  cases h with
  | aside hn => simp [hn] at hp
  | ignored hp' he hf => simp [set, he]
  | escalated hp' he hc ho => exact set_of_isFile (isFile_of_content hpath hc)
  | held hp' he ho =>
    simp only [set, Bool.or_eq_true]
    exact .inl he
  | saved hp' he hc ho => exact set_of_isFile (isFile_of_content hpath hc)
  | @pending f r file hp' he ho => simp [set, pendingState, hp']

/-- A kill among the lines leaves the switch set. -/
lemma absorbLines_set {lines : List Text} (hpath : k.hasPath = true) {raw : Text}
    (hr : raw ∈ lines) (hp : (parseKillLine raw).isSome = true) :
    (absorbLines lines k).2.set = true := by
  induction lines generalizing k with
  | nil => simp at hr
  | cons raw' rest ih =>
    have hmove := absorbLine_move hpath raw'
    have hkeep := hmove.absorbs hpath
    rw [absorbLines_cons]
    rcases List.mem_cons.mp hr with rfl | hr
    · have hset := hmove.set_of_kill hpath hp
      split_ifs
      · exact (absorbLines_absorbs rest (hkeep.hasPath.trans hpath)).set hset
      · exact hset
    · split_ifs with hb
      · exact ih (hkeep.hasPath.trans hpath) hr
      · rw [Bool.not_eq_true] at hb
        rw [hb] at hmove
        exact hmove.stopped.1

/-- Lines read to their end leave none pending. -/
lemma absorbLines_idle {lines : List Text} (hpath : k.hasPath = true)
    (hl : k.pendingLine = none) (h : (absorbLines lines k).1 = true) :
    (absorbLines lines k).2.pendingLine = none := by
  induction lines generalizing k with
  | nil => exact hl
  | cons raw rest ih =>
    have hmove := absorbLine_move hpath raw
    have hkeep := hmove.absorbs hpath
    rw [absorbLines_cons] at h ⊢
    split_ifs at h ⊢ with hb
    rw [hb] at hmove
    have hidle : (absorbLine raw k).2.pendingLine = none := by
      generalize (absorbLine raw k).2 = k' at hmove
      cases hmove with
      | aside hp => exact hl
      | ignored hp he hf => exact hl
      | escalated hp he hc ho => exact hl
      | saved hp he hc ho => rfl
    exact ih (hkeep.hasPath.trans hpath) hidle h

/-! ### One reading of the channel -/

/-- The lines the next request to the channel returns. -/
def polledLines (k : KillSwitch) : List Text := k.alerts.poll.1.flatMap splitLines

/-- The process once its pending line, if any, is saved. -/
inductive Ready (k : KillSwitch) : KillSwitch → Prop
  | idle (hl : k.pendingLine = none) : Ready k k
  | saved {raw reason : Text} {flatten : Bool} {file : LatchFile} (hl : k.pendingLine = some raw)
      (hs : k.savePending = (true,
        { k with file := file, alertLatch := some (flatten, reason), pendingLine := none }))
      (hp : parseKillLine raw = some (flatten, reason))
      (hc : file.content = some (killFileText reason flatten))
      (ho : k.file.outcomes = [] → file.outcomes = []) :
      Ready k { k with file := file, alertLatch := some (flatten, reason), pendingLine := none }

/-- The lines of a request are read; the offset is committed when all of them were. -/
def finished (k : KillSwitch) : KillSwitch :=
  let read := absorbLines k.polledLines { k with alerts := k.alerts.poll.2 }
  if read.1 then { read.2 with alerts := read.2.alerts.commit } else read.2

/-- **One reading of the channel**: the pending line cannot be saved and nothing is read, or it is
saved first. -/
theorem absorbAlerts_run (hpath : k.hasPath = true) (hr : k.Recalls) :
    (∃ file, k.pendingLine.isSome = true ∧ k.file.outcomes ≠ [] ∧
      (file.content = k.file.content ∨ ∃ n rest, k.file.outcomes = .breaksOff n :: rest) ∧
      k.savePending = (false, { k with file := file }) ∧ k.absorbAlerts = { k with file := file }) ∨
    ∃ k₁, Ready k k₁ ∧ k.absorbAlerts = k₁.finished := by
  have hpolled : ∀ k₁ : KillSwitch, k₁.absorbPolled = k₁.finished := by
    intro k₁
    unfold absorbPolled finished polledLines
    dsimp only
    rcases absorbLines (k₁.alerts.poll.1.flatMap splitLines) { k₁ with alerts := k₁.alerts.poll.2 }
      with ⟨- | -, k'⟩ <;> rfl
  unfold absorbAlerts
  by_cases hl : k.pendingLine = none
  · exact .inr ⟨k, .idle hl, by rw [if_neg (by simp [hl]), hpolled]⟩
  · obtain ⟨raw, hl⟩ := Option.ne_none_iff_exists'.mp hl
    obtain ⟨⟨flatten, reason⟩, hp⟩ := Option.isSome_iff_exists.mp (hr.pending raw hl)
    rw [if_pos (by simp [hl])]
    rcases savePending_cases hpath hl hp with ⟨file, hw, hc, ho⟩ | ⟨file, hw, ho, hc⟩
    · rw [hw]
      exact .inr ⟨_, .saved hl hw hp hc ho, hpolled _⟩
    · rw [hw]
      exact .inl ⟨file, by simp [hl], ho, hc, rfl, rfl⟩

lemma Ready.idle_pending {k₁ : KillSwitch} (h : Ready k k₁) : k₁.pendingLine = none := by
  cases h with
  | idle hl => exact hl
  | saved hl hs hp hc ho => rfl

lemma Ready.frame {k₁ : KillSwitch} (h : Ready k k₁) :
    k₁.hasPath = k.hasPath ∧ k₁.envStart = k.envStart ∧ k₁.alerts = k.alerts ∧
      k₁.flattenEscalated = k.flattenEscalated := by
  cases h <;> exact ⟨rfl, rfl, rfl, rfl⟩

lemma Ready.recalls {k₁ : KillSwitch} (h : Ready k k₁) (hr : k.Recalls) : k₁.Recalls := by
  cases h with
  | idle hl => exact hr
  | saved hl hs hp hc ho =>
    exact
      { latch := fun r h => by
          cases h
          exact parseKillLine_plain hp
        pending := fun r h => by cases h }

/-- Reading keeps what the lines keep, and the offset moves only when all of them were read. -/
lemma finished_run (k : KillSwitch) :
    ∃ k', (absorbLines k.polledLines { k with alerts := k.alerts.poll.2 }).2 = k' ∧
      ((absorbLines k.polledLines { k with alerts := k.alerts.poll.2 }).1 = true ∧
          k.finished = { k' with alerts := k'.alerts.commit } ∨
        (absorbLines k.polledLines { k with alerts := k.alerts.poll.2 }).1 = false ∧
          k.finished = k') := by
  unfold finished
  dsimp only
  rcases absorbLines k.polledLines { k with alerts := k.alerts.poll.2 } with ⟨- | -, k'⟩
  · exact ⟨k', rfl, .inr ⟨rfl, rfl⟩⟩
  · exact ⟨k', rfl, .inl ⟨rfl, rfl⟩⟩

end KillSwitch

end PumpGrok
