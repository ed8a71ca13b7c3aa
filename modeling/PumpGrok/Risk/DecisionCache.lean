import PumpGrok.Risk.CheckPass

/-!
The decision cache. What it holds is what an evaluation returned earlier under the same key, and
since the key counts the ledger's rows, on the same ledger.
-/

namespace PumpGrok

namespace LedgerStore

/-- No transaction is empty. -/
def Solid (st : LedgerStore) : Prop := ∀ b ∈ st.txns, b ≠ []

/-- With no transaction empty, an earlier store of as many rows is the same. -/
lemma txns_eq_of_count {st st' : LedgerStore} (h : st.txns <+: st'.txns) (hs : st'.Solid)
    (hc : st.count = st'.count) : st.txns = st'.txns := by
  obtain ⟨bs, hbs⟩ := h
  have hlen : bs.flatten.length = 0 := by
    have : st'.count = st.count + bs.flatten.length := by
      rw [count, count, read, read, ← hbs, List.flatten_append, List.length_append]
    omega
  rcases bs with - | ⟨b, bs⟩
  · simpa using hbs
  · have hb : b ≠ [] := hs b (by rw [← hbs]; simp)
    simp [hb] at hlen

end LedgerStore

/-- A decision that an evaluation returned under a key, on a ledger this one extends. -/
structure Decided (cfg : DeskConfig) (d : Desk) (k : CacheKey) (dec : RiskDecision)
    (call : CheckCall) (d₀ : Desk) : Prop where
  key : keyOf call d₀ = k
  txns : d₀.store.txns <+: d.store.txns
  equity : d₀.store.initialEquity = d.store.initialEquity
  decided : (evaluate cfg call (keyedDesk d₀)).1 = .ok dec

/-- Every cached decision is one an evaluation returned. -/
def CacheOk (cfg : DeskConfig) (d : Desk) : Prop :=
  ∀ k dec, d.decisions.get k = some dec → ∃ call d₀, Decided cfg d k dec call d₀

lemma Decided.extend {cfg : DeskConfig} {d d' d₀ : Desk} {k : CacheKey} {dec : RiskDecision}
    {call : CheckCall} (h : Decided cfg d k dec call d₀) (ht : d.store.txns <+: d'.store.txns)
    (he : d'.store.initialEquity = d.store.initialEquity) : Decided cfg d' k dec call d₀ :=
  ⟨h.key, h.txns.trans ht, h.equity.trans he.symm, h.decided⟩

lemma CacheOk.extend {cfg : DeskConfig} {d d' : Desk} (h : CacheOk cfg d)
    (hd : d'.decisions = d.decisions) (ht : d.store.txns <+: d'.store.txns)
    (he : d'.store.initialEquity = d.store.initialEquity) : CacheOk cfg d' := by
  intro k dec hk
  obtain ⟨call, d₀, hd₀⟩ := h k dec (hd ▸ hk)
  exact ⟨call, d₀, hd₀.extend ht he⟩

lemma CacheOk.quietly {cfg : DeskConfig} {d d' : Desk} (h : CacheOk cfg d) (hq : d.Quietly d') :
    CacheOk cfg d' :=
  h.extend hq.decisions hq.store.txns_extends hq.store.initialEquity_eq

/-- What the checks of one order at one stage do to the desk: quiet changes, and decisions
cached under that order and stage. -/
structure Desk.Consulted (cfg : DeskConfig) (call : CheckCall) (d d' : Desk) : Prop where
  store : d.store.Grows EngineRow d'.store
  now : d'.now = d.now
  ids : d.nextId ≤ d'.nextId
  cacheOk : CacheOk cfg d → CacheOk cfg d'
  cached : ∀ k, d'.decisions.get k ≠ none → d.decisions.get k ≠ none ∨
    (k.stage = call.stage ∧ k.orderHash = orderHashFor call.order)

namespace Desk

variable {cfg : DeskConfig} {call : CheckCall} {d d' d'' : Desk}

lemma Quietly.consulted (h : d.Quietly d') : d.Consulted cfg call d' :=
  ⟨h.store, h.now, h.ids, fun hc => hc.quietly h, fun _ hk => .inl (h.decisions ▸ hk)⟩

lemma Consulted.trans (h : d.Consulted cfg call d') (h' : d'.Consulted cfg call d'') :
    d.Consulted cfg call d'' where
  store := h.store.trans h'.store
  now := h'.now.trans h.now
  ids := h.ids.trans h'.ids
  cacheOk hc := h'.cacheOk (h.cacheOk hc)
  cached k hk := (h'.cached k hk).elim (h.cached k) .inr

instance : IsPreorder Desk (Consulted cfg call) where
  refl d := (Quietly.refl d).consulted
  trans _ _ _ := Consulted.trans

end Desk

section Check

variable {cfg : DeskConfig} {call : CheckCall} {d d' : Desk} {dec : RiskDecision}

/-- Caching a decision just evaluated. -/
lemma consulted_cache (he : evaluate cfg call (keyedDesk d) = (.ok dec, d')) :
    d.Consulted cfg call { d' with
      decisions := (d'.decisions.set (keyOf call d) dec).keepNewest decisionCacheMax } := by
  have hq : d.Quietly d' := (keyedDesk_quietly d).trans ((evaluate_quietly cfg call).run he)
  have hget : ∀ k x, ((d'.decisions.set (keyOf call d) dec).keepNewest decisionCacheMax).get k =
      some x → (k = keyOf call d ∧ x = dec) ∨ d.decisions.get k = some x := by
    intro k x hk
    have := Dict.get_of_get_keepNewest hk
    rw [Dict.get_set] at this
    split_ifs at this with hkey
    · exact .inl ⟨hkey, (Option.some.inj this).symm⟩
    · rw [hq.decisions] at this
      exact .inr this
  refine ⟨hq.store, hq.now, hq.ids, fun hc k x hk => ?_, fun k hk => ?_⟩
  · rcases hget k x hk with ⟨rfl, rfl⟩ | hold
    · exact ⟨call, d, rfl, hq.store.txns_extends, hq.store.initialEquity_eq.symm, by rw [he]⟩
    · obtain ⟨call₀, d₀, h₀⟩ := hc k x hold
      exact ⟨call₀, d₀, h₀.extend hq.store.txns_extends hq.store.initialEquity_eq⟩
  · obtain ⟨x, hx⟩ := Option.ne_none_iff_exists'.mp hk
    rcases hget k x hx with ⟨rfl, -⟩ | hold
    · exact .inr ⟨rfl, rfl⟩
    · exact .inl (by rw [hold]; simp)

/-- **A check** consults the desk for its own order and stage only. -/
theorem check_consulted (cfg : DeskConfig) (call : CheckCall) (d : Desk) :
    d.Consulted cfg call (check cfg call d).2 := by
  rw [check_run]
  rcases d.decisions.get (keyOf call d) with - | x
  · rcases he : evaluate cfg call (keyedDesk d) with ⟨x | x, d'⟩
    · exact ((keyedDesk_quietly d).trans ((evaluate_quietly cfg call).run he)).consulted
    · exact consulted_cache he
  · exact (keyedDesk_quietly d).consulted

/-- **What a check answers** was decided by an evaluation on the same ledger: just now, or when
it was cached. -/
theorem check_decided (hc : CacheOk cfg d) (hs : d.store.Solid)
    (h : check cfg call d = (.ok dec, d')) :
    ∃ call₀ d₀, Decided cfg d (keyOf call d) dec call₀ d₀ ∧ d₀.store.txns = d.store.txns := by
  rw [check_run] at h
  rcases hg : d.decisions.get (keyOf call d) with - | x
  · rw [hg] at h
    rcases he : evaluate cfg call (keyedDesk d) with ⟨x | x, d₁⟩
    · simp [he] at h
    · simp only [he] at h
      obtain ⟨rfl, -⟩ := (Prod.mk.inj h).imp_left Except.ok.inj
      exact ⟨call, d, ⟨rfl, List.prefix_refl _, rfl, by rw [he]⟩, rfl⟩
  · rw [hg] at h
    obtain ⟨rfl, -⟩ := (Prod.mk.inj h).imp_left Except.ok.inj
    obtain ⟨call₀, d₀, h₀⟩ := hc _ _ hg
    refine ⟨call₀, d₀, h₀, LedgerStore.txns_eq_of_count h₀.txns hs ?_⟩
    exact congrArg CacheKey.count h₀.key

end Check

end PumpGrok
