import PumpGrok.Ledger.Growth
import PumpGrok.Ledger.Tickets
import PumpGrok.Lib.PyNumber
import PumpGrok.Risk.Engine

/-!
Human approvals: the phrase a human signs and the row it is recorded as. A row holds zeros and
empty texts for what a record leaves out, and the engine's reader takes them back for absent.
-/

namespace PumpGrok

namespace Approvals

/-- The sides a phrase may be signed for. -/
inductive PhraseKind where
  | humanBuy
  | humanSell
  deriving DecidableEq

def PhraseKind.kind : PhraseKind → ApprovalKind
  | humanBuy => .humanBuy
  | humanSell => .humanSell

def base58 : Text := "123456789ABCDEFGHJKLMNPQRSTUVWXYZabcdefghijkmnopqrstuvwxyz".toList

def lamportsPerSol : ℚ := 10 ^ 9

/-- Lamports of an amount of SOL, halves away from zero. -/
def solToLamports (value : ℚ) : ℤ :=
  if 0 ≤ value then ⌊value * lamportsPerSol + 1 / 2⌋ else -⌊-value * lamportsPerSol + 1 / 2⌋

/-- `_sol_to_lamports`. -/
def sizeLamports (sizeSol : Text) : Except Exc ℤ :=
  match PyText.decimalLiteral sizeSol with
  | some (.finite q) => if q ≤ 0 then .error .valueError else .ok (solToLamports q)
  | _ => .error .valueError

/-- Building a record runs its validators. -/
def build (a : ApprovalRecord) : Except Exc ApprovalRecord :=
  if a.valid && a.ticketId.all Tickets.ticketRe then .ok a else .error .valueError

def parseHumanPhrase (phrase : Text) (kind : PhraseKind) (by_ : Signer) (approvalId : ℕ) (at_ : ℤ) :
    Except Exc ApprovalRecord :=
  match PyText.split phrase with
  | [word, ticketId, mint, sizeSol, slippageRaw] =>
    if word ≠ "approve".toList then .error .valueError
    else if ¬ Tickets.ticketRe ticketId then .error .valueError
    else if ¬ (32 ≤ mint.length ∧ mint.length ≤ 44) ∨ ∃ c ∈ mint, c ∉ base58 then .error .valueError
    else
      match PyText.intLiteral slippageRaw with
      | none => .error .valueError
      | some slippageBps =>
        if ¬ (0 ≤ slippageBps ∧ slippageBps ≤ 10000) then .error .valueError
        else do
          let size ← sizeLamports sizeSol
          build
            { id := approvalId
              kind := kind.kind
              ticketId := some ticketId
              mint := some mint
              sizeLamports := some size
              tokenUnits := none
              maxSlippageBps := some slippageBps
              exitRuleId := none
              approvedBy := by_
              rawMessage := phrase
              at_ }
  | _ => .error .valueError

/-- The row of an approval: absent fields are stored as empty texts and zeros. -/
def payload (record : ApprovalRecord) : ApprovalRecorded where
  id := record.id
  kind := record.kind
  approvedBy := record.approvedBy
  at_ := record.at_
  ticketId := record.ticketId.getD []
  mint := record.mint.getD []
  sizeLamports := record.sizeLamports.getD 0
  tokenUnits := record.tokenUnits.getD 0
  maxSlippageBps := record.maxSlippageBps.getD 0
  exitRuleId := record.exitRuleId
  rawMessage := record.rawMessage
  consumed := false

def recordHumanApproval (record : ApprovalRecord) (ts : ℤ) (source : EventSource) :
    Prog LedgerStore Exc Event :=
  LedgerStore.append
    { ts, source, key := .approval record.id, payload := .approvalRecorded (payload record) }

/-! ### What a phrase gives -/

variable {phrase : Text} {kind : PhraseKind} {by_ : Signer} {id : ℕ} {at_ : ℤ} {a : ApprovalRecord}

/-- The last word of a phrase is a zero. -/
def ZeroSlippage (phrase : Text) : Prop :=
  ((PyText.split phrase)[4]?).bind PyText.intLiteral = some 0

instance (phrase : Text) : Decidable (ZeroSlippage phrase) :=
  inferInstanceAs (Decidable (_ = _))

lemma build_ok_iff {b : ApprovalRecord} :
    build b = .ok a ↔ a = b ∧ (b.valid && b.ticketId.all Tickets.ticketRe) = true := by
  unfold build
  split_ifs with h
  · simp [h, eq_comm]
  · simp [h]

/-- The record of an accepted phrase. -/
structure OfPhrase (phrase : Text) (a : ApprovalRecord) : Prop where
  valid : a.valid = true
  ticket : ∃ t, a.ticketId = some t ∧ t ≠ []
  mint : ∃ m, a.mint = some m ∧ m ≠ []
  size : ∃ n, a.sizeLamports = some n ∧ n ≠ 0
  units : a.tokenUnits = none
  slippage : ∃ n, a.maxSlippageBps = some n ∧ (n = 0 ↔ ZeroSlippage phrase)
  kind : a.kind = .humanBuy ∨ a.kind = .humanSell
  unconsumed : a.consumed = false

lemma ofPhrase (h : parseHumanPhrase phrase kind by_ id at_ = .ok a) : OfPhrase phrase a := by
  unfold parseHumanPhrase at h
  split at h
  next word ticketId mint sizeSol slippageRaw hwords =>
    split_ifs at h with hword hticket hmint
    split at h
    · exact nomatch h
    next slippageBps hslippage =>
    split_ifs at h with hrange
    obtain ⟨size, hsize, hb⟩ := except_bind_ok_iff.mp h
    obtain ⟨rfl, hv⟩ := build_ok_iff.mp hb
    have hpos : 0 < size := by
      simp only [ApprovalRecord.valid, Bool.and_eq_true, Option.all_some, decide_eq_true_eq] at hv
      exact hv.1.1.1.2
    have hticket' : ticketId ≠ [] := by
      rintro rfl
      exact absurd hticket (by decide)
    have hmint' : mint ≠ [] := by
      rintro rfl
      exact hmint (.inl (by decide))
    refine ⟨(Bool.and_eq_true_iff.mp hv).1, ⟨ticketId, rfl, hticket'⟩, ⟨mint, rfl, hmint'⟩,
      ⟨size, rfl, by omega⟩, rfl, ⟨slippageBps, rfl, ?_⟩, ?_, rfl⟩
    · simp [ZeroSlippage, hwords, hslippage]
    · cases kind
      · exact .inl rfl
      · exact .inr rfl
  · exact nomatch h

/-! ### Reading back -/

/-- **The round trip of a row.** -/
lemma approvalOf_payload (h : OfPhrase phrase a) :
    (approvalOf (payload a)).valid = true ∧ approvalOf (payload a) = a ↔ ¬ ZeroSlippage phrase := by
  obtain ⟨hv, ⟨t, ht, ht'⟩, ⟨m, hm, hm'⟩, ⟨n, hn, hn'⟩, hu, ⟨s, hs, hzero⟩, hkind, hc⟩ := h
  rw [← hzero]
  by_cases hs' : s = 0
  · refine ⟨fun he => ?_, fun h => absurd hs' h⟩
    have hnone : (approvalOf (payload a)).maxSlippageBps = none := by
      simp [approvalOf, payload, hs, hs']
    rw [he.2, hs] at hnone
    exact nomatch hnone
  · refine ⟨fun _ => hs', fun _ => ?_⟩
    have hsame : approvalOf (payload a) = a := by
      cases a
      simp_all [approvalOf, payload]
    exact ⟨by rw [hsame, hv], hsame⟩

lemma latestApproval_append (es es' : List Event) (id : ℕ)
    (h : ∀ e ∈ es', ∀ p, e.payload = .approvalRecorded p → p.id ≠ id) :
    latestApproval (es ++ es') id = latestApproval es id := by
  unfold latestApproval
  rw [List.foldl_append]
  generalize es.foldl _ (none : Option ApprovalRecorded) = latest
  induction es' generalizing latest with
  | nil => rfl
  | cons e es' ih =>
    rw [List.foldl_cons, ih fun e' he' => h e' (List.mem_cons_of_mem _ he')]
    split
    next p hp => exact if_neg (h e (by simp) p hp)
    · rfl

/-- Rows other writers append: human approvals under the key of their id, as they are recorded, and
settled ones of other ids. A writer that stores an open approval under another key is left out. -/
def Leaves (id : ℕ) (_ : LedgerStore) (rows : List Row) : Prop :=
  ∀ row ∈ rows, ∀ p, row.payload = .approvalRecorded p →
    p.consumed = false ∧ row.key = .approval p.id ∨ p.consumed = true ∧ p.id ≠ id

/-- The ledger holds the row of an approval, and no later row of it. -/
def Holds (a : ApprovalRecord) (st : LedgerStore) : Prop :=
  st.byKey (.approval a.id) ≠ none ∧ latestApproval st.read a.id = some (payload a)

lemma holds_recorded {st st' : LedgerStore} {e : Event} {ts : ℤ} {source : EventSource}
    (h : recordHumanApproval a ts source st = (.ok e, st')) : Holds a st' := by
  obtain ⟨-, -, rfl, rfl⟩ := LedgerStore.append_ok_iff.mp h
  constructor
  · rw [ne_eq, LedgerStore.byKey_eq_none_iff, LedgerStore.read_commit]
    intro hn
    exact hn _ (List.mem_append_right _ (List.mem_singleton.mpr rfl)) rfl
  · rw [LedgerStore.read_commit, latestApproval, List.foldl_append]
    exact if_pos rfl

lemma Holds.grows {st st' : LedgerStore} (h : Holds a st) (hg : st.Grows (Leaves a.id) st') :
    Holds a st' := by
  refine hg.invariant (I := Holds a) (fun _ _ h => h) (fun st rows h hf hl => ?_) h
  obtain ⟨hkey, hlast⟩ := h
  rw [Holds, LedgerStore.read_commit]
  constructor
  · rw [ne_eq, LedgerStore.byKey_eq_none_iff, LedgerStore.read_commit]
    intro hn
    exact hkey (LedgerStore.byKey_eq_none_iff.mpr fun e he => hn e (List.mem_append_left _ he))
  · rw [latestApproval_append _ _ _ fun e he p hp => ?_, hlast]
    have hrow : e.toRow ∈ rows := by
      rw [← LedgerStore.stamp_toRow (st.count + 1) rows]
      exact List.mem_map_of_mem he
    -- an unconsumed row of the approval would need the key the ledger holds
    rcases hl e.toRow hrow p hp with ⟨-, hk⟩ | ⟨-, hid⟩
    · intro hid
      rw [← hid, ← hk] at hkey
      exact hkey (hf.2 _ hrow)
    · exact hid

/-- **A human approval survives the ledger** exactly when its slippage is not zero. -/
theorem survives_iff {st st' st'' : LedgerStore} {e : Event} {ts : ℤ} {source : EventSource}
    (hp : parseHumanPhrase phrase kind by_ id at_ = .ok a)
    (hr : recordHumanApproval a ts source st = (.ok e, st'))
    (hg : st'.Grows (Leaves a.id) st'') :
    approvals st''.read a.id = some a ↔ ¬ ZeroSlippage phrase := by
  have hlatest := ((holds_recorded hr).grows hg).2
  rw [← approvalOf_payload (ofPhrase hp), approvals, hlatest]
  dsimp only
  rw [if_neg (by simp [payload])]
  by_cases hv : (approvalOf (payload a)).valid = true <;> simp [hv]

/-! ### A phrase with no slippage -/

def sampleMint : Text := List.replicate 32 '1'

/-- A phrase for a buy of a hundredth of a SOL. -/
def samplePhrase (slippage : Text) : Text :=
  "approve SOL-20260101-001 ".toList ++ sampleMint ++ " 0.01 ".toList ++ slippage

def sampleRecord (slippage : Text) (slippageBps : ℤ) : ApprovalRecord where
  id := 7
  kind := .humanBuy
  ticketId := some "SOL-20260101-001".toList
  mint := some sampleMint
  sizeLamports := some 10000000
  tokenUnits := none
  maxSlippageBps := some slippageBps
  exitRuleId := none
  approvedBy := .human ['a']
  rawMessage := samplePhrase slippage
  at_ := 0

def sampleStore (record : ApprovalRecord) : LedgerStore :=
  (recordHumanApproval record 0 .manual {}).2

lemma parse_sample {slippage : Text} {slippageBps : ℤ}
    (hw : PyText.split (samplePhrase slippage) =
      ["approve".toList, "SOL-20260101-001".toList, sampleMint, "0.01".toList, slippage])
    (hs : PyText.intLiteral slippage = some slippageBps)
    (hr : 0 ≤ slippageBps ∧ slippageBps ≤ 10000) :
    parseHumanPhrase (samplePhrase slippage) .humanBuy (.human ['a']) 7 0 =
      .ok (sampleRecord slippage slippageBps) := by
  have hsize : sizeLamports "0.01".toList = .ok 10000000 := by decide +kernel
  have hmint : ¬ (¬ (32 ≤ sampleMint.length ∧ sampleMint.length ≤ 44) ∨
      ∃ c ∈ sampleMint, c ∉ base58) := by
    rintro (hlen | ⟨c, hc, hno⟩)
    · exact hlen (by decide)
    · rw [List.eq_of_mem_replicate hc] at hno
      exact hno (by decide)
  unfold parseHumanPhrase
  rw [hw]
  dsimp only
  rw [if_neg (by simp), if_neg (by decide +kernel), if_neg hmint, hs]
  dsimp only
  rw [if_neg (by simpa using hr), hsize]
  have hv : (sampleRecord slippage slippageBps).valid = true := rfl
  have ht : Tickets.ticketRe "SOL-20260101-001".toList = true := by decide +kernel
  have hb : build (sampleRecord slippage slippageBps) = .ok (sampleRecord slippage slippageBps) :=
    build_ok_iff.mpr ⟨rfl, by rw [hv, Bool.true_and]; exact ht⟩
  exact hb

/-- An approval with a slippage of a basis point is read back. -/
theorem survives_sample :
    approvals (sampleStore (sampleRecord ['1'] 1)).read 7 = some (sampleRecord ['1'] 1) ↔
      ¬ ZeroSlippage (samplePhrase ['1']) := by
  have hr : ∃ e, recordHumanApproval (sampleRecord ['1'] 1) 0 .manual {} =
      (.ok e, sampleStore (sampleRecord ['1'] 1)) := ⟨_, rfl⟩
  obtain ⟨e, hr⟩ := hr
  exact survives_iff (parse_sample (by decide +kernel) (by decide +kernel) (by decide)) hr .refl

/-- **An approval without slippage is accepted and recorded, and gone.** -/
theorem zero_slippage_lost :
    parseHumanPhrase (samplePhrase ['0']) .humanBuy (.human ['a']) 7 0 =
        .ok (sampleRecord ['0'] 0) ∧
      (recordHumanApproval (sampleRecord ['0'] 0) 0 .manual {}).1.isOk = true ∧
      approvals (sampleStore (sampleRecord ['0'] 0)).read 7 = none :=
  ⟨parse_sample (by decide +kernel) (by decide +kernel) (by decide), by decide +kernel,
    by decide +kernel⟩

end Approvals

end PumpGrok
