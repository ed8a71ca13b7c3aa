import PumpGrok.Engine.Exits
import PumpGrok.Execution.CurveMath
import PumpGrok.Execution.Models
import PumpGrok.Ledger.Openings
import PumpGrok.Lib.DictMap
import PumpGrok.Lib.Runs

/-!
The exit rules over the open positions of a ledger: a book of positions rebuilt from the ledger on
every pass, the pass that reads prices and places the sells, and a desk whose process may restart.
-/

namespace PumpGrok

/-- One rule sell, with the opening row of the position it sells, and whether the venue left it
unknown. -/
structure RuleSell where
  mint : Mint
  opening : ℕ
  ticket : TicketId
  units : ℤ
  rule : ExitRule
  unknown : Bool
  deriving DecidableEq

/-- What a sync tracks of one open position. -/
structure Tracked where
  position : ExitPosition
  identity : ℕ
  ticket : TicketId

structure ExitBook where
  exits : ExitsSettings
  positions : Dict Mint ExitPosition := ∅
  tickets : Dict Mint TicketId := ∅
  /-- The opening row of each position that is tracked. -/
  identity : Dict Mint ℕ := ∅
  /-- The openings whose sell the venue left unknown. -/
  heldOut : List (Mint × ℕ) := []

/-- One exit pass: its time, the rows committed between its two syncs (it closes the graduated
positions there), the curves it reads, and whether the venue leaves a sell unknown. -/
structure ExitPass where
  now : ℤ
  closes : List Row := []
  curve : Mint → Option CurveSnapshot
  unknown : Mint → Bool := fun _ => false

namespace ExitPass

variable (pass : ExitPass)

/-- The scaled price of a mint, zero without reserves to price it. -/
def price (mint : Mint) : ℤ :=
  match pass.curve mint with
  | none => 0
  | some snapshot =>
    match spot snapshot.sLamports snapshot.tUnits with
    | .error _ => 0
    | .ok quote => scaledPrice quote

end ExitPass

namespace ExitBook

variable (b : ExitBook)

/-- The peak of an opening: what was persisted, and what this book has seen of the same opening. -/
def peak (mint : Mint) (seq : ℕ) (persisted : ℤ) : ℤ :=
  match b.positions.get mint with
  | some prior =>
    if b.identity.get mint = some seq then max prior.peakPrice persisted else persisted
  | none => persisted

/-- One position of the fold, unless nothing is left of it or its opening is held out. -/
def track (opened : Dict Mint ℕ) (mint : Mint) (view : PositionView) : Option Tracked :=
  let seq := (opened.get mint).getD 0
  if view.tokenUnits ≤ 0 ∨ (mint, seq) ∈ b.heldOut then none
  else
    let entry := scaledPrice view.priceEntry
    some
      { position :=
          { mint := mint
            entryPrice := entry
            peakPrice := b.peak mint seq (restorePeak entry view.pricePeak)
            tokenAmount := view.tokenUnits
            openedAt := view.openedTs }
        identity := seq
        ticket := view.ticketId }

/-- Rebuild the open positions from the ledger. -/
def sync (st : LedgerStore) : ExitBook :=
  let state := replay (initialState 0 0) st.read
  let fresh := state.positions.filterMap (b.track (openedSeq st.read))
  { b with
    positions := fresh.mapValues Tracked.position
    tickets := b.tickets.update (fresh.mapValues Tracked.ticket)
    identity := fresh.mapValues Tracked.identity }

/-- The tracked position, changed in place. -/
def put (position : ExitPosition) : ExitBook :=
  { b with positions := b.positions.set position.mint position }

/-- Stop offering the tracked position whose sell the venue left unknown. -/
def holdOut (mint : Mint) : ExitBook :=
  { b with heldOut := (mint, (b.identity.get mint).getD 0) :: b.heldOut }

/-- The sell of a position on a rule. -/
def ruleSell (pass : ExitPass) (position : ExitPosition) (rule : ExitRule) : RuleSell where
  mint := position.mint
  opening := (b.identity.get position.mint).getD 0
  ticket := (b.tickets.get position.mint).getD []
  units := position.tokenAmount
  rule := rule
  unknown := pass.unknown position.mint

/-- One position of a pass: read its price, apply it, and sell on a signal. -/
def checkPosition (pass : ExitPass) (acc : ExitBook × List RuleSell) (position : ExitPosition) :
    ExitBook × List RuleSell :=
  let price := pass.price position.mint
  if price ≤ 0 then acc
  else
    let applied := position.applyPrice price acc.1.exits pass.now
    let seen := acc.1.put applied.1
    match applied.2 with
    | none => (seen, acc.2)
    | some signal =>
      let sell := seen.ruleSell pass applied.1 signal.reason
      (if sell.unknown then seen.holdOut position.mint else seen, acc.2 ++ [sell])

/-- One pass over the tracked positions, with the sells it places. -/
def checkOnce (pass : ExitPass) : ExitBook × List RuleSell :=
  b.positions.values.foldl (checkPosition pass) (b, [])

end ExitBook

/-! ### The desk -/

/-- The ledger, the book of the running process, and every rule sell there was. -/
structure ExitDesk where
  store : LedgerStore
  book : ExitBook
  sold : List RuleSell := []

namespace ExitDesk

inductive Act where
  | rows (rows : List Row)
  | check (pass : ExitPass)
  | reload (exits : ExitsSettings)
  | restart

variable (s : ExitDesk)

def append (rows : List Row) : ExitDesk :=
  { s with store := (LedgerStore.appendBatch rows s.store).2 }

def sync : ExitDesk := { s with book := s.book.sync s.store }

/-- A pass: sync, close what has graduated, sync again, and check every position. -/
def check (pass : ExitPass) : ExitDesk :=
  let seen := (s.sync.append pass.closes).sync
  let checked := seen.book.checkOnce pass
  { seen with book := checked.1, sold := seen.sold ++ checked.2 }

/-- A new process has the ledger alone. -/
def restart : ExitDesk := { s with book := { exits := s.book.exits } }

def step : Act → ExitDesk
  | .rows rows => s.append rows
  | .check pass => s.check pass
  | .reload exits => { s with book := { s.book with exits := exits } }
  | .restart => s.restart

def start (exits : ExitsSettings) : ExitDesk := { store := {}, book := { exits := exits } }

def after (exits : ExitsSettings) (as : List Act) : ExitDesk := Runs.after step (start exits) as

end ExitDesk

/-! ### What a sync tracks -/

namespace ExitBook

variable {b : ExitBook} {st : LedgerStore} {m : Mint} {opening : ℕ} {view : PositionView}

/-- The position a sync makes of one on the ledger. -/
def tracked (b : ExitBook) (m : Mint) (opening : ℕ) (view : PositionView) : ExitPosition where
  mint := m
  entryPrice := scaledPrice view.priceEntry
  peakPrice := b.peak m opening (restorePeak (scaledPrice view.priceEntry) view.pricePeak)
  tokenAmount := view.tokenUnits
  openedAt := view.openedTs

/-- A sync leaves the position out. -/
def Skips (b : ExitBook) (m : Mint) (opening : ℕ) (view : PositionView) : Prop :=
  view.tokenUnits ≤ 0 ∨ (m, opening) ∈ b.heldOut

instance : Decidable (b.Skips m opening view) := inferInstanceAs (Decidable (_ ∨ _))

lemma track_held (h : Held st.read m opening view) :
    b.track (openedSeq st.read) m view =
      if b.Skips m opening view then none
      else some
        { position := b.tracked m opening view, identity := opening, ticket := view.ticketId } := by
  unfold track
  rw [h.opened]
  rfl

variable (b st)

@[simp] lemma sync_exits : (b.sync st).exits = b.exits := rfl

@[simp] lemma sync_heldOut : (b.sync st).heldOut = b.heldOut := rfl

variable {b st}

lemma sync_get (h : Held st.read m opening view) :
    (b.sync st).positions.get m =
        (if b.Skips m opening view then none else some (b.tracked m opening view)) ∧
      (b.sync st).identity.get m = (if b.Skips m opening view then none else some opening) ∧
      (¬ b.Skips m opening view → (b.sync st).tickets.get m = some view.ticketId) := by
  unfold sync
  simp only [Dict.get_mapValues, Dict.get_update, Dict.get_filterMap, h.position, Option.bind_some,
    track_held h]
  split_ifs with hs
  · exact ⟨rfl, rfl, fun h => absurd hs h⟩
  · exact ⟨rfl, rfl, fun _ => rfl⟩

lemma sync_get_none (h : (replay (initialState 0 0) st.read).positions.get m = none) :
    (b.sync st).positions.get m = none ∧ (b.sync st).identity.get m = none := by
  unfold sync
  simp [h]

/-- A tracked position is one of the ledger. -/
lemma held_of_sync {position : ExitPosition} (h : (b.sync st).positions.get m = some position) :
    ∃ opening view, Held st.read m opening view ∧ ¬ b.Skips m opening view ∧
      position = b.tracked m opening view := by
  rcases hm : (replay (initialState 0 0) st.read).positions.get m with - | view
  · rw [(sync_get_none hm).1] at h
    cases h
  · obtain ⟨opening, hheld⟩ := Held.of_position hm
    rw [(sync_get hheld).1] at h
    split_ifs at h with hs
    exact ⟨opening, view, hheld, hs, (Option.some.inj h).symm⟩

lemma held_of_identity {seq : ℕ} (h : (b.sync st).identity.get m = some seq) :
    ∃ view, Held st.read m seq view ∧ ¬ b.Skips m seq view := by
  rcases hm : (replay (initialState 0 0) st.read).positions.get m with - | view
  · rw [(sync_get_none hm).2] at h
    cases h
  · obtain ⟨opening, hheld⟩ := Held.of_position hm
    rw [(sync_get hheld).2.1] at h
    split_ifs at h with hs
    obtain rfl := Option.some.inj h
    exact ⟨view, hheld, hs⟩

/-! ### What a pass does -/

section Pass

variable (b : ExitBook) (pass : ExitPass)

/-- The sell a pass places for a position. -/
def sellOf (position : ExitPosition) : Option RuleSell :=
  if pass.price position.mint ≤ 0 then none
  else
    (position.applyPrice (pass.price position.mint) b.exits pass.now).2.map fun signal =>
      b.ruleSell pass position signal.reason

/-- The position after its price is read. -/
def priced (position : ExitPosition) : ExitPosition :=
  if pass.price position.mint ≤ 0 then position else position.ratchet (pass.price position.mint)

variable {b pass} {sold : List RuleSell} {position : ExitPosition}

lemma sellOf_congr {b' : ExitBook} (he : b'.exits = b.exits) (hi : b'.identity = b.identity)
    (ht : b'.tickets = b.tickets) : b'.sellOf pass = b.sellOf pass := by
  funext position
  unfold sellOf ruleSell
  rw [he, hi, ht]

/-- What one position of a pass changes. -/
structure Checked (b : ExitBook) (pass : ExitPass) (position : ExitPosition) (b' : ExitBook) :
    Prop where
  exits : b'.exits = b.exits
  identity : b'.identity = b.identity
  tickets : b'.tickets = b.tickets
  positions : ∀ m, b'.positions.get m =
    if m = position.mint ∧ 0 < pass.price m then some (priced pass position)
    else b.positions.get m
  heldOut : ∀ x, x ∈ b'.heldOut ↔ x ∈ b.heldOut ∨
    ∃ sell, b.sellOf pass position = some sell ∧ sell.unknown = true ∧ x = (sell.mint, sell.opening)

lemma checkPosition_spec (b : ExitBook) (pass : ExitPass) (sold : List RuleSell)
    (position : ExitPosition) :
    Checked b pass position (checkPosition pass (b, sold) position).1 ∧
      (checkPosition pass (b, sold) position).2 = sold ++ (b.sellOf pass position).toList := by
  unfold checkPosition
  by_cases hp : pass.price position.mint ≤ 0
  · have hsell : b.sellOf pass position = none := by
      unfold sellOf
      rw [if_pos hp]
    simp only [hp, if_true]
    refine ⟨⟨rfl, rfl, rfl, fun m => ?_, fun x => by simp [hsell]⟩, by simp [hsell]⟩
    have hno : ¬ (m = position.mint ∧ 0 < pass.price m) := by
      rintro ⟨rfl, hpos⟩
      omega
    rw [if_neg hno]
  · simp only [hp, if_false]
    have hget : ∀ m, (b.put (position.applyPrice (pass.price position.mint) b.exits
        pass.now).1).positions.get m =
        if m = position.mint ∧ 0 < pass.price m then some (priced pass position)
        else b.positions.get m := by
      intro m
      have hput : (b.put (position.ratchet (pass.price position.mint))).positions.get m =
          if m = position.mint then some (position.ratchet (pass.price position.mint))
          else b.positions.get m := Dict.get_set _ _ _ _
      rw [ExitPosition.applyPrice, hput]
      by_cases hm : m = position.mint
      · subst hm
        rw [if_pos rfl, if_pos ⟨rfl, by omega⟩]
        unfold priced
        rw [if_neg hp]
      · rw [if_neg hm, if_neg fun h => hm h.1]
    rcases hsig : (position.applyPrice (pass.price position.mint) b.exits pass.now).2
      with - | signal
    · have hsell : b.sellOf pass position = none := by
        unfold sellOf
        rw [if_neg hp, hsig]
        rfl
      exact ⟨⟨rfl, rfl, rfl, hget, fun x => by simp [hsell, put]⟩, by simp [hsell]⟩
    · have hsell : b.sellOf pass position = some (b.ruleSell pass position signal.reason) := by
        unfold sellOf
        rw [if_neg hp, hsig]
        rfl
      dsimp only
      refine ⟨?_, by rw [hsell]; rfl⟩
      have hunknown : ((b.put (position.applyPrice (pass.price position.mint) b.exits
          pass.now).1).ruleSell pass
          (position.applyPrice (pass.price position.mint) b.exits pass.now).1
          signal.reason).unknown = pass.unknown position.mint := rfl
      rw [hunknown]
      by_cases hu : pass.unknown position.mint = true
      · rw [if_pos hu]
        refine ⟨rfl, rfl, rfl, hget, fun x => ?_⟩
        rw [hsell]
        simp only [holdOut, put, List.mem_cons, Option.some.injEq, exists_eq_left', ruleSell, hu,
          true_and]
        exact or_comm
      · rw [if_neg hu]
        refine ⟨rfl, rfl, rfl, hget, fun x => ?_⟩
        rw [hsell]
        simp only [put, Option.some.injEq, exists_eq_left', ruleSell, hu, Bool.false_eq_true,
          false_and, or_false]

/-- What a whole pass changes, over the positions it was given. -/
structure CheckedAll (b : ExitBook) (pass : ExitPass) (l : List ExitPosition) (b' : ExitBook) :
    Prop where
  exits : b'.exits = b.exits
  identity : b'.identity = b.identity
  tickets : b'.tickets = b.tickets
  untouched : ∀ m, m ∉ l.map ExitPosition.mint → b'.positions.get m = b.positions.get m
  seen : ∀ position ∈ l, b'.positions.get position.mint =
    if 0 < pass.price position.mint then some (priced pass position)
    else b.positions.get position.mint
  heldOut : ∀ x, x ∈ b'.heldOut ↔ x ∈ b.heldOut ∨
    ∃ sell ∈ l.filterMap (b.sellOf pass), sell.unknown = true ∧ x = (sell.mint, sell.opening)

lemma foldl_checkPosition_spec (b : ExitBook) (pass : ExitPass) (sold : List RuleSell)
    {l : List ExitPosition} (hl : (l.map ExitPosition.mint).Nodup) :
    CheckedAll b pass l (l.foldl (checkPosition pass) (b, sold)).1 ∧
      (l.foldl (checkPosition pass) (b, sold)).2 = sold ++ l.filterMap (b.sellOf pass) := by
  induction l generalizing b sold with
  | nil => exact ⟨⟨rfl, rfl, rfl, fun _ _ => rfl, by simp, by simp⟩, by simp⟩
  | cons position l ih =>
    rw [List.map_cons, List.nodup_cons] at hl
    obtain ⟨h₁, hs₁⟩ := checkPosition_spec b pass sold position
    rcases hc : checkPosition pass (b, sold) position with ⟨b₁, sold₁⟩
    rw [hc] at h₁ hs₁
    dsimp only at h₁ hs₁
    obtain ⟨h₂, hs₂⟩ := ih b₁ sold₁ hl.2
    rw [List.foldl_cons, hc]
    have hsell : b₁.sellOf pass = b.sellOf pass := sellOf_congr h₁.exits h₁.identity h₁.tickets
    rw [hsell] at hs₂
    refine ⟨⟨h₂.exits.trans h₁.exits, h₂.identity.trans h₁.identity, h₂.tickets.trans h₁.tickets,
      fun m hm => ?_, fun x hx => ?_, fun x => ?_⟩, ?_⟩
    · rw [List.map_cons, List.mem_cons, not_or] at hm
      rw [h₂.untouched m hm.2, h₁.positions, if_neg fun h => hm.1 h.1]
    · rcases List.mem_cons.mp hx with rfl | hx
      · rw [h₂.untouched x.mint hl.1, h₁.positions]
        simp only [true_and]
      · have hne : x.mint ≠ position.mint := by
          intro he
          exact hl.1 (he ▸ List.mem_map_of_mem hx)
        rw [h₂.seen x hx, h₁.positions, if_neg (fun h => hne h.1 : ¬ (x.mint = position.mint ∧ _))]
    · rw [h₂.heldOut, h₁.heldOut, hsell]
      rcases hp : b.sellOf pass position with - | sell
      · rw [List.filterMap_cons_none hp]
        simp
      · rw [List.filterMap_cons_some hp]
        simp [or_assoc]
    · rw [hs₂, hs₁, List.append_assoc]
      rcases hp : b.sellOf pass position with - | sell
      · rw [List.filterMap_cons_none hp]
        simp
      · rw [List.filterMap_cons_some hp]
        simp

/-! ### A pass after a sync -/

lemma sync_values (b : ExitBook) (st : LedgerStore) :
    (b.sync st).positions.values =
      (replay (initialState 0 0) st.read).positions.entries.filterMap fun x =>
        (b.track (openedSeq st.read) x.1 x.2).map Tracked.position := by
  unfold sync Dict.values
  rw [Dict.entries_mapValues, List.map_map]
  unfold Dict.filterMap
  dsimp only
  rw [List.map_filterMap]
  refine List.filterMap_congr fun x _ => ?_
  rcases b.track (openedSeq st.read) x.1 x.2 with - | t
  · rfl
  · rfl

/-- The tracked positions have distinct mints: a position stands under its own. -/
lemma sync_mints_nodup (b : ExitBook) (st : LedgerStore) :
    ((b.sync st).positions.values.map ExitPosition.mint).Nodup := by
  have hkeys : (b.sync st).positions.values.map ExitPosition.mint =
      (b.sync st).positions.entries.map Prod.fst := by
    unfold Dict.values
    rw [List.map_map]
    refine List.map_congr_left fun x hx => ?_
    have hget := (Dict.mem_entries_iff _ x.1 x.2).mp hx
    obtain ⟨opening, view, -, -, hpos⟩ := held_of_sync hget
    exact congrArg ExitPosition.mint hpos
  rw [hkeys]
  exact (b.sync st).positions.nodup

/-- **A pass after a sync**: what it changes, and the sells it places. -/
lemma checkOnce_spec (b : ExitBook) (st : LedgerStore) (pass : ExitPass) :
    CheckedAll (b.sync st) pass (b.sync st).positions.values ((b.sync st).checkOnce pass).1 ∧
      ((b.sync st).checkOnce pass).2 =
        (b.sync st).positions.values.filterMap ((b.sync st).sellOf pass) := by
  obtain ⟨h, hs⟩ := foldl_checkPosition_spec (b.sync st) pass [] (sync_mints_nodup b st)
  exact ⟨h, hs⟩

/-- The sell a pass places for a position, once it is tracked. -/
def saleOf (exits : ExitsSettings) (pass : ExitPass) (position : ExitPosition) (opening : ℕ)
    (ticket : TicketId) : Option RuleSell :=
  if pass.price position.mint ≤ 0 then none
  else
    (position.applyPrice (pass.price position.mint) exits pass.now).2.map fun signal =>
      { mint := position.mint
        opening := opening
        ticket := ticket
        units := position.tokenAmount
        rule := signal.reason
        unknown := pass.unknown position.mint }

lemma saleOf_opening {exits : ExitsSettings} {opening : ℕ} {ticket : TicketId} {sell : RuleSell}
    (h : saleOf exits pass position opening ticket = some sell) :
    sell.mint = position.mint ∧ sell.opening = opening := by
  unfold saleOf at h
  split_ifs at h
  obtain ⟨signal, -, rfl⟩ := Option.map_eq_some_iff.mp h
  exact ⟨rfl, rfl⟩

lemma sellOf_tracked (h : Held st.read m opening view) (hs : ¬ b.Skips m opening view) :
    (b.sync st).sellOf pass (b.tracked m opening view) =
      saleOf b.exits pass (b.tracked m opening view) opening view.ticketId := by
  obtain ⟨-, hid, hticket⟩ := @sync_get b st m opening view h
  rw [if_neg hs] at hid
  unfold sellOf saleOf ruleSell
  have hmint : (b.tracked m opening view).mint = m := rfl
  rw [hmint, hid, hticket hs]
  rfl

lemma checkOnce_get (b : ExitBook) (st : LedgerStore) (pass : ExitPass) (m : Mint) :
    ((b.sync st).checkOnce pass).1.positions.get m =
      ((b.sync st).positions.get m).map (priced pass) := by
  obtain ⟨hspec, -⟩ := checkOnce_spec b st pass
  rcases hm : (b.sync st).positions.get m with - | x
  · rw [hspec.untouched m ?_, hm]
    · rfl
    · intro hmem
      obtain ⟨y, hy, hym⟩ := List.mem_map.mp hmem
      obtain ⟨k, hk⟩ := (Dict.mem_values_iff _ y).mp hy
      obtain ⟨opening, view, -, -, hpos⟩ := held_of_sync hk
      have hkm : k = m := (congrArg ExitPosition.mint hpos).symm.trans hym
      rw [← hkm, hk] at hm
      cases hm
  · obtain ⟨opening, view, -, -, hpos⟩ := held_of_sync hm
    have hxm : x.mint = m := congrArg ExitPosition.mint hpos
    have hseen := hspec.seen x ((Dict.mem_values_iff _ x).mpr ⟨m, hm⟩)
    rw [hxm] at hseen
    rw [hseen, hm, Option.map_some]
    by_cases hp : 0 < pass.price m
    · rw [if_pos hp]
    · rw [if_neg hp]
      unfold priced
      rw [hxm, if_pos (not_lt.mp hp)]

/-- The sells of a pass are those of the positions of the ledger that are not skipped. -/
lemma mem_checkOnce_iff {sell : RuleSell} :
    sell ∈ ((b.sync st).checkOnce pass).2 ↔
      ∃ m opening view, Held st.read m opening view ∧ ¬ b.Skips m opening view ∧
        saleOf b.exits pass (b.tracked m opening view) opening view.ticketId = some sell := by
  rw [(checkOnce_spec b st pass).2, List.mem_filterMap]
  constructor
  · rintro ⟨x, hx, hsell⟩
    obtain ⟨m, hm⟩ := (Dict.mem_values_iff _ x).mp hx
    obtain ⟨opening, view, hheld, hs, rfl⟩ := held_of_sync hm
    exact ⟨m, opening, view, hheld, hs, sellOf_tracked hheld hs ▸ hsell⟩
  · rintro ⟨m, opening, view, hheld, hs, hsell⟩
    refine ⟨b.tracked m opening view, ?_, (sellOf_tracked hheld hs).trans hsell⟩
    refine (Dict.mem_values_iff _ _).mpr ⟨m, ?_⟩
    rw [(sync_get hheld).1, if_neg hs]

lemma checkOnce_heldOut {x : Mint × ℕ} :
    x ∈ ((b.sync st).checkOnce pass).1.heldOut ↔ x ∈ b.heldOut ∨
      ∃ sell ∈ ((b.sync st).checkOnce pass).2, sell.unknown = true ∧
        x = (sell.mint, sell.opening) := by
  obtain ⟨hspec, hsells⟩ := checkOnce_spec b st pass
  rw [hspec.heldOut, hsells]
  rfl

end Pass

end ExitBook

end PumpGrok
