import OracleServer.BuilderRuns
import OracleServer.Guarantees
import OracleServer.ItemRuns
import OracleServer.RequestShapes

/-! Identical items of one batch. A request reads the token set and the quotes once, so
two items that name the same tokens start from the same statement; but each looks into the
shared reuse cache at its own moment and with its own reading of the clock, and may be
handed a response with the times of an earlier frame. The two contexts agree exactly when
the two lookups decide alike. -/
namespace OracleServer

open Interaction Interaction.Contract

/-- The request's own reads give the item this slot and this snapshot. -/
structure ReadFor [Alloy] (req : OracleRequestTuple) (slot : ResolvedSlot) (snap : QuoteSnapshot)
    (tr : ServerTrace) : Prop where
  tokens : ∃ s₀ set, (⟨s₀, .tokens .request, set⟩ : Entry Server Op Op.Answer) ∈ tr ∧
    resolveSlot set.registry req = .ok slot
  snapshot : ∃ s₀ symbols m,
    (⟨s₀, .snapshotMany .request symbols, m⟩ : Entry Server Op Op.Answer) ∈ tr ∧
      AList.lookup slot.pair.symbol m = some snap

/-- The lookup that an item made: the reading of the clock right before it, and the entry
that it found. -/
def ownLookup : ServerTrace → Option (Int64 × Option Stored)
  | ⟨_, .nowUnixMs .preSign, now⟩ :: ⟨_, .reuseGet _, found⟩ :: _ => some (now, found)
  | _ :: own => ownLookup own
  | [] => none

/-- The entry that this lookup may hand back at that reading. With reuse off there is none. -/
def mayHand (D : Deployment) (g : QuoteGeneration) (context : List B256) (expiry : UInt64)
    (own : ServerTrace) : Option Stored := do
  let (now, found) ← ownLookup own
  let nowSecs ← u64TryFrom (now.toInt / 1000)
  let stored ← found
  if D.reuseEnabled = true ∧ MayReuse D g context expiry nowSecs stored then some stored else none

/-- Publish time and expiry, as a context states them. -/
def signedTimes (context : List B256) : Option B256 × Option B256 :=
  (context[publishTimeSlot]?, context[expirySlot]?)

/-- Two lookups decide alike: neither may hand back an entry, or what either may hand back
states the same times as the other, or as the `context` that the other signs instead. -/
def DecideAlike (context : List B256) : Option Stored → Option Stored → Prop
  | none, none => True
  | some stored, none | none, some stored =>
    signedTimes stored.response.context = signedTimes context
  | some stored, some stored' =>
    signedTimes stored.response.context = signedTimes stored'.response.context

/-- The trace of an answered request, shared out among its items. -/
def InFlight.SharesOut [Alloy] [RainFloat] (D : Deployment) (q : InFlight)
    (items : List OracleRequestTuple) (lab : Labelled) : Prop :=
  ∃ result, q.result = some result ∧ q.endpoint.SharesOut D items q.task.trace result lab

section Statements
variable {D : Deployment} {g : QuoteGeneration} {context a b c : List B256} {expiry : UInt64}
  {own : ServerTrace} {stored : Stored}

/-- Two contexts of one statement are equal once their times are. -/
lemma eq_of_signedTimes (ha : sameStatement a c = true) (hb : sameStatement b c = true)
    (htimes : signedTimes a = signedTimes b) : a = b := by
  obtain ⟨hpublish, hexpiry⟩ := Prod.mk.inj htimes
  refine List.ext_getElem? fun i => ?_
  by_cases hp : i = publishTimeSlot
  · rw [hp, hpublish]
  by_cases he : i = expirySlot
  · rw [he, hexpiry]
  exact ((sameStatement_slots ha).2 i hp he).trans ((sameStatement_slots hb).2 i hp he).symm

lemma mayHand_some (h : mayHand D g context expiry own = some stored) :
    sameStatement stored.response.context context = true := by
  obtain ⟨⟨now, found⟩, -, h⟩ := Option.bind_eq_some_iff.mp h
  obtain ⟨n, -, h⟩ := Option.bind_eq_some_iff.mp h
  obtain ⟨entry, -, h⟩ := Option.bind_eq_some_iff.mp h
  split at h
  · next hmay =>
    obtain rfl := Option.some.inj h
    obtain ⟨previous, hreusable⟩ := Option.isSome_iff_exists.mp hmay.2.2
    exact (reusable_some hreusable).2.1
  · cases h

lemma mayHand_off (h : D.reuseEnabled = false) : mayHand D g context expiry own = none := by
  rw [Option.eq_none_iff_forall_not_mem]
  intro stored hstored
  obtain ⟨⟨now, found⟩, -, hstored⟩ := Option.bind_eq_some_iff.mp hstored
  obtain ⟨n, -, hstored⟩ := Option.bind_eq_some_iff.mp hstored
  obtain ⟨entry, -, hstored⟩ := Option.bind_eq_some_iff.mp hstored
  split at hstored
  · next hmay => simp [h] at hmay
  · cases hstored

lemma mayHand_missed (now : Int64) (h : ownLookup own = some (now, none)) :
    mayHand D g context expiry own = none := by
  rw [mayHand, h]
  dsimp only [bind, Option.bind]
  split
  · rfl
  · rfl

lemma mayHand_found (now : Int64) {n : UInt64} (hon : D.reuseEnabled = true)
    (h : ownLookup own = some (now, some stored)) (hn : u64TryFrom (now.toInt / 1000) = some n) :
    mayHand D g context expiry own =
      if MayReuse D g context expiry n stored then some stored else none := by
  rw [mayHand, h]
  simp only [bind, Option.bind, hn, hon, true_and]

lemma mem_of_ownLookup {now : Int64} {found : Option Stored}
    (h : ownLookup own = some (now, found)) :
    ∃ s key, (⟨s, .reuseGet key, found⟩ : Entry Server Op Op.Answer) ∈ own := by
  induction own using ownLookup.induct with
  | case1 s₁ now' s₂ key found' rest =>
    obtain ⟨rfl, rfl⟩ := Prod.mk.inj (Option.some.inj h)
    exact ⟨s₂, key, by simp⟩
  | case2 e rest hnot ih =>
    rw [ownLookup] at h
    · obtain ⟨s, key, hmem⟩ := ih h
      exact ⟨s, key, List.mem_cons_of_mem _ hmem⟩
    · exact hnot
  | case3 => cases h

/-- The context that such a lookup leads to. -/
def handed (context : List B256) (found : Option Stored) : List B256 :=
  found.elim context fun stored => stored.response.context

/-- Lookups that decide alike are those that lead to one context. -/
lemma handed_eq_iff {found found' : Option Stored}
    (h : ∀ stored, found = some stored → sameStatement stored.response.context context = true)
    (h' : ∀ stored, found' = some stored → sameStatement stored.response.context context = true) :
    handed context found = handed context found' ↔ DecideAlike context found found' := by
  have hself := sameStatement_refl context
  constructor
  · intro heq
    cases found with
    | none =>
      cases found' with
      | none => trivial
      | some stored' => exact congrArg signedTimes heq.symm
    | some stored =>
      cases found' with
      | none => exact congrArg signedTimes heq
      | some stored' => exact congrArg signedTimes heq
  · intro halike
    cases found with
    | none =>
      cases found' with
      | none => rfl
      | some stored' => exact (eq_of_signedTimes (h' stored' rfl) hself halike).symm
    | some stored =>
      cases found' with
      | none => exact eq_of_signedTimes (h stored rfl) hself halike
      | some stored' => exact eq_of_signedTimes (h stored rfl) (h' stored' rfl) halike

end Statements

section Item
variable [Alloy] [RainFloat] {D : Deployment} {a : List Symbol} {H : Assume} {s s' : Server}
  {schema : PairSchema} {req : OracleRequestTuple} {own : ServerTrace} {r : OracleResponse}

omit [Alloy] in
/-- A token that was cached and is found dead was evicted, so it is not found alive later. -/
lemma not_revived {p : ReadPoint} {symbols : List Symbol} {symbol : Symbol} {snap : QuoteSnapshot}
    {m : Map Symbol QuoteSnapshot} {s₁ s₂ s₃ : Server} {check : LiveCheck}
    (hsnap : m.lookup symbol = some snap)
    (hchain : (rules D a H).Chain s [⟨s₁, .snapshotMany p symbols, m⟩,
      ⟨s₂, .isLive .stored snap.generation, false⟩, ⟨s₃, .isLive check snap.generation, true⟩] s') :
    False := by
  obtain ⟨-, hs₁, i₁, u₁, -, hp₁, hr₁, -, hr₂, hs₂, i₂, u₂, -, hp₂, hr₃, -, hr₄, hs₃, i₃, u₃, -, hp₃,
    -⟩ := hchain
  have hm : s₁.pricing.cache.snapshotMany D.chainId symbols = m :=
    (Prod.mk.inj (Option.some.inj hp₁)).1
  have hheld := held_of_snapshot hs₁.journal (hm ▸ hsnap)
  have hlive : ClientState.live a s₃.journal snap.generation := by
    unfold ClientState.live
    rw [← hs₃.journal]
    exact (Prod.mk.inj (Option.some.inj hp₃)).1
  have hdead : ¬ ClientState.live a s₂.journal snap.generation := by
    unfold ClientState.live
    rw [← hs₂.journal]
    exact fun h => Bool.false_ne_true ((Prod.mk.inj (Option.some.inj hp₂)).1.symm.trans h)
  obtain ⟨between, hbetween⟩ := hr₁.trans hr₂
  obtain ⟨after, hafter⟩ := hr₃.trans hr₄
  rw [← hbetween, ClientState.live_iff_no_evict hheld] at hdead
  rw [← hafter, ← hbetween, List.append_assoc, ClientState.live_iff_no_evict hheld] at hlive
  exact hdead fun e he => hlive e (List.mem_append_left _ he)

omit [RainFloat] in
lemma revalidateSlot_ran {endpoint : String} {signs : Bool} {t : Int64}
    {current : Map Symbol QuoteSnapshot} {registry : TokenRegistry} {slot : BuiltSlot}
    (h : (revalidateSlot endpoint signs t current registry slot).run.Ran own (.ok r)) :
    r = slot.response.response := by
  unfold revalidateSlot at h
  dsimp only at h
  split at h
  · exact absurd h unavailable_ran
  split at h
  · exact absurd h unavailable_ran
  obtain ⟨_, t₁, t₂, rfl, -, h₁⟩ := Prog.Ran.bindOk_inv h
  obtain ⟨_, t₃, t₄, rfl, -, h₂⟩ := Prog.Ran.bindOk_inv h₁
  split at h₂
  · exact absurd h₂ unavailable_ran
  obtain ⟨_, t₅, t₆, rfl, -, h₃⟩ := Prog.Ran.bindOk_inv h₂
  obtain ⟨_, t₇, t₈, rfl, -, h₄⟩ := Prog.Ran.bindOk_inv h₃
  obtain ⟨_, t₉, t₁₀, rfl, -, h₅⟩ := Prog.Ran.bindOk_inv h₄
  split at h₅
  · cases (Prog.Ran.ret_inv h₅).2
  · split at h₅
    · exact absurd h₅ unavailable_ran
    · exact (Except.ok.inj (Prog.Ran.ret_inv h₅).2).symm
  · exact (Except.ok.inj (Prog.Ran.ret_inv h₅).2).symm

/-- An item that is delivered, alone: the two reads of the request, the build, and the closing
pass, which hands on what was built. -/
lemma alone_ran {slots : List ResolvedSlot × List ResolvedSlot}
    {built : List BuiltSlot × List BuiltSlot}
    (h : ((pairBound D schema).alone (.pair schema) slots built req).run.Ran own (.ok r)) :
    ∃ s₁ set slot s₂ symbols m snap tr b rest,
      own = ⟨s₁, .tokens .request, set⟩ :: ⟨s₂, .snapshotMany .request symbols, m⟩ :: (tr ++ rest) ∧
      schema.signsExpiry = true ∧ resolveSlot set.registry req = .ok slot ∧
      AList.lookup slot.pair.symbol m = some snap ∧
      (buildResponseFromQuotePairBound D slot.pair snap slot.inputToken slot.outputToken
        schema).run.Ran tr (.ok b) ∧ r = b.response := by
  obtain ⟨resolve, t₁, t₂, rfl, hresolver, h₁⟩ := Prog.Ran.bindOk_inv h
  obtain ⟨s₁, set, rest₁, rfl, hret⟩ := Prog.Ran.askEx_inv hresolver
  obtain ⟨rfl, hset⟩ := Prog.Ran.ret_inv hret
  obtain rfl := Except.ok.inj hset
  obtain ⟨slot, t₃, t₄, rfl, hitem, h₂⟩ := Prog.Ran.bindOk_inv h₁
  obtain ⟨rfl, hslot⟩ := Prog.Ran.ret_inv hitem
  split at h₂
  · exact absurd h₂ unavailable_ran
  next hlegacy =>
  obtain ⟨build, t₅, t₆, rfl, hbuilder, h₃⟩ := Prog.Ran.bindOk_inv h₂
  obtain ⟨s₂, m, rest₂, rfl, hret⟩ := Prog.Ran.askEx_inv hbuilder
  obtain ⟨rfl, hbuild⟩ := Prog.Ran.ret_inv hret
  obtain rfl := Except.ok.inj hbuild
  obtain ⟨out, t₇, t₈, rfl, hbuilt, h₄⟩ := Prog.Ran.bindOk_inv h₃
  dsimp only at hbuilt
  split at hbuilt
  · exact absurd hbuilt unavailable_ran
  next snap hsnap =>
  obtain ⟨b, t₉, t₁₀, hsplit, hresponse, hret⟩ := Prog.Ran.bindOk_inv hbuilt
  obtain ⟨rfl, hout⟩ := Prog.Ran.ret_inv hret
  obtain rfl := Except.ok.inj hout
  rw [List.append_nil] at hsplit
  subst hsplit
  obtain ⟨recheck, t₁₁, t₁₂, rfl, hrechecker, hrecheck⟩ := Prog.Ran.bindOk_inv h₄
  obtain ⟨s₃, current, rest₃, rfl, h₅⟩ := Prog.Ran.askEx_inv hrechecker
  obtain ⟨s₄, set', rest₄, rfl, h₆⟩ := Prog.Ran.askEx_inv h₅
  obtain ⟨s₅, validatedAt, rest₅, rfl, hret⟩ := Prog.Ran.askEx_inv h₆
  obtain ⟨rfl, hrechecks⟩ := Prog.Ran.ret_inv hret
  obtain rfl := Except.ok.inj hrechecks
  exact ⟨s₁, set, slot, s₂, _, m, snap, t₇, b, _, rfl,
    signsExpiry_of_not_legacy (by simpa using hlegacy), hslot, hsnap, hresponse,
    revalidateSlot_ran hrecheck⟩

/-- What an item delivers is what its own lookup may hand back, or else the context of its
own snapshot. -/
lemma alone_hands {slots : List ResolvedSlot × List ResolvedSlot}
    {built : List BuiltSlot × List BuiltSlot} (hchain : (rules D a H).Chain s own s')
    (h : ((pairBound D schema).alone (.pair schema) slots built req).run.Ran own (.ok r)) :
    ∃ slot snap context expiry, ReadFor req slot snap own ∧
      Builds D.chainId schema slot.pair.direction snap.quote slot.inputToken slot.outputToken
        context expiry ∧
      r.context = handed context (mayHand D snap.generation context expiry own) := by
  obtain ⟨s₁, set, slot, s₂, symbols, m, snap, tr, b, rest, rfl, hsigns, hslot, hsnap, hbuild, rfl⟩ :=
    alone_ran h
  obtain ⟨s₃, s₄, set₄, s₅, now₅, tr', context, expiry, rfl, hbuilds, hreuse⟩ :=
    buildResponse_ran hsigns hbuild
  obtain ⟨s₆, s₇, now, n, tr'', rfl, hn, hhanded⟩ := reuseOrSign_ran hreuse
  refine ⟨slot, snap, context, expiry, ⟨⟨s₁, set, by simp, hslot⟩, s₂, symbols, m, by simp, hsnap⟩,
    hbuilds, ?_⟩
  rcases hhanded with ⟨hoff, hcontext⟩ | ⟨hon, s₈, found, more, rfl, hcase⟩
  · rw [mayHand_off hoff]
    exact hcontext
  rcases hcase with ⟨stored, rfl, hmay, hstored⟩ | ⟨hcontext, hdead⟩
  · rw [mayHand_found now hon rfl hn, if_pos hmay]
    exact congrArg OracleResponse.context hstored
  cases found with
  | none =>
    rw [mayHand_missed now rfl]
    exact hcontext
  | some stored =>
    rw [mayHand_found now hon rfl hn]
    by_cases hmay : MayReuse D snap.generation context expiry n stored
    · -- the token was found dead, and is found alive by the signing that followed
      obtain ⟨s₉, s₁₀, more', rfl⟩ := hdead stored rfl hmay
      exact (not_revived hsnap (hchain.sublist (.cons _ (.cons_cons _ (.cons _ (.cons _ (.cons _
        (.cons _ (.cons _ (.cons _ (.cons_cons _ (.cons_cons _ (List.nil_sublist _))))))))))))).elim
    · rw [if_neg hmay]
      exact hcontext

end Item

section Reads
variable [Alloy] {tr tr' : ServerTrace} {req req' : OracleRequestTuple} {slot slot' : ResolvedSlot}
  {snap snap' : QuoteSnapshot}

lemma ReadFor.mono (h : ReadFor req slot snap tr) (hsub : tr.Sublist tr') :
    ReadFor req slot snap tr' := by
  obtain ⟨⟨s₀, set, htokens, hslot⟩, s₁, symbols, m, hsnapshot, hsnap⟩ := h
  exact ⟨⟨s₀, set, hsub.subset htokens, hslot⟩, s₁, symbols, m, hsub.subset hsnapshot, hsnap⟩

/-- Two items that name the same tokens have one slot and one snapshot. -/
lemma ReadFor.unique [RainFloat] {D : Deployment} {a : List Symbol} {H : Assume} {s : Server}
    (hordered : Ordered tr) (hgenuine : Genuine D a H tr s)
    (htokens : ioTokensFor req.order req.inputIOIndex req.outputIOIndex =
      ioTokensFor req'.order req'.inputIOIndex req'.outputIOIndex)
    (h : ReadFor req slot snap tr) (h' : ReadFor req' slot' snap' tr) :
    slot = slot' ∧ snap = snap' := by
  obtain ⟨⟨s₀, set, hmem, hslot⟩, s₁, symbols, m, hread, hsnap⟩ := h
  obtain ⟨⟨s₀', set', hmem', hslot'⟩, s₁', symbols', m', hread', hsnap'⟩ := h'
  -- the request read the token set once, and the quotes once
  obtain rfl := hgenuine.tokens hmem
  have hset : set' = s₀.tokens := (hordered.onlyTokens (.inl rfl) hmem).found hmem'
  have hquotes : m' = m := (hordered.onlySnapshot (.inl rfl) hread).found hread'
  subst hset hquotes
  have hsame : slot = slot' := by
    unfold resolveSlot at hslot hslot'
    rw [htokens, hslot'] at hslot
    exact (Except.ok.inj hslot).symm
  subst hsame
  exact ⟨rfl, Option.some.inj (hsnap.symm.trans hsnap')⟩

end Reads

/-- The two items start from one slot and one snapshot, and then the contexts that they were
delivered agree exactly when their lookups decide alike. -/
def AgreeAsLookups [Alloy] [RainFloat] (D : Deployment) (schema : PairSchema)
    (req req' : OracleRequestTuple) (own own' : ServerTrace) (r r' : OracleResponse) : Prop :=
  ∃ slot snap context expiry, ReadFor req slot snap own ∧ ReadFor req' slot snap own' ∧
    Builds D.chainId schema slot.pair.direction snap.quote slot.inputToken slot.outputToken
      context expiry ∧
    (r.context = r'.context ↔
      DecideAlike context (mayHand D snap.generation context expiry own)
        (mayHand D snap.generation context expiry own'))

section Runs
variable [Toml] [Alloy] [Unicode] [RainFloat] [Abi]

/-- In every run, whatever arrives and moves between its steps: two delivered items of a
batch that name the same tokens start from one statement, and carry the same context if
and only if the lookup of the one and the lookup of the other, each at the item's own
reading of the clock, decide alike. Where reuse is off they do. -/
theorem identical_items_agree (D : Deployment) (set : TokenSet) (es : List Event) (w : World)
    (hrun : World.run D (.boot set) es = some w) (q : InFlight) (hq : q ∈ w.requests)
    (schema : PairSchema) (hendpoint : q.endpoint = .pair schema) (decoded : DecodedRequest)
    (hbody : decodeRequestBody q.body = .ok decoded) (i j : ℕ) (req req' : OracleRequestTuple)
    (hi : decoded.items[i]? = some req) (hj : decoded.items[j]? = some req')
    (htokens : ioTokensFor req.order req.inputIOIndex req.outputIOIndex =
      ioTokensFor req'.order req'.inputIOIndex req'.outputIOIndex)
    (r r' : OracleResponse) (hr : q.Delivered i r) (hr' : q.Delivered j r') :
    (D.reuseEnabled = false → r.context = r'.context) ∧
    (∃ lab own own', q.SharesOut D decoded.items lab ∧
      q.endpoint.EndedWith D decoded.items lab i (.ok r) own ∧
      q.endpoint.EndedWith D decoded.items lab j (.ok r') own') ∧
    ∀ lab own own', q.SharesOut D decoded.items lab →
      q.endpoint.EndedWith D decoded.items lab i (.ok r) own →
      q.endpoint.EndedWith D decoded.items lab j (.ok r') own' →
      AgreeAsLookups D schema req req' own own' r r' := by
  have hclosed : Assume.Closed ⟨fun _ => True, fun _ => True⟩ D.staticConfig :=
    ⟨fun _ _ => trivial, fun _ _ _ => trivial⟩
  obtain ⟨hordered, hgenuine, -⟩ :=
    delivered_of_run hclosed trivial (fun e _ => e.clocked_true) hrun hq hr
  obtain ⟨response, hresult, hok⟩ := hr
  obtain ⟨response', hresult', hok'⟩ := hr'
  obtain rfl := Except.ok.inj (Option.some.inj (hresult.symm.trans hresult'))
  obtain ⟨⟨s₀, hchain⟩, hanswered⟩ := (replayed_of_run hrun).sharesOut hq hresult
  have hshared : ∃ lab own own', q.SharesOut D decoded.items lab ∧
      q.endpoint.EndedWith D decoded.items lab i (.ok r) own ∧
      q.endpoint.EndedWith D decoded.items lab j (.ok r') own' := by
    rcases hanswered with ⟨e, he, -⟩ | ⟨decoded', lab, hdecoded, hshares⟩
    · cases hbody.symm.trans he
    obtain rfl := Except.ok.inj (hbody.symm.trans hdecoded)
    obtain ⟨own, hended⟩ := hshares.delivered hok
    obtain ⟨own', hended'⟩ := hshares.delivered hok'
    exact ⟨lab, own, own', ⟨_, hresult, hshares⟩, hended, hended'⟩
  have hagree : ∀ lab own own', q.SharesOut D decoded.items lab →
      q.endpoint.EndedWith D decoded.items lab i (.ok r) own →
      q.endpoint.EndedWith D decoded.items lab j (.ok r') own' →
      AgreeAsLookups D schema req req' own own' r r' := by
    rintro lab own own' ⟨result, -, hshares⟩ hended hended'
    have hsub := hended.sublist hshares
    have hsub' := hended'.sublist hshares
    rw [hendpoint] at hended hended'
    obtain ⟨-, req₁, slots, built, hreq, hran⟩ := hended
    obtain ⟨-, req₂, slots', built', hreq', hran'⟩ := hended'
    obtain rfl := Option.some.inj (hi.symm.trans hreq)
    obtain rfl := Option.some.inj (hj.symm.trans hreq')
    obtain ⟨slot, snap, context, expiry, hread, hbuilds, hcontext⟩ :=
      alone_hands (hchain.sublist hsub) hran
    obtain ⟨slot', snap', context', expiry', hread', hbuilds', hcontext'⟩ :=
      alone_hands (hchain.sublist hsub') hran'
    obtain ⟨rfl, rfl⟩ := (hread.mono hsub).unique hordered hgenuine htokens (hread'.mono hsub')
    obtain ⟨rfl, rfl⟩ := hbuilds.unique hbuilds'
    refine ⟨slot, snap, context, expiry, hread, hread', hbuilds, ?_⟩
    rw [hcontext, hcontext']
    exact handed_eq_iff (fun _ => mayHand_some) (fun _ => mayHand_some)
  refine ⟨fun hoff => ?_, hshared, hagree⟩
  obtain ⟨lab, own, own', hshares, hended, hended'⟩ := hshared
  obtain ⟨slot, snap, context, expiry, -, -, -, hiff⟩ := hagree lab own own' hshares hended hended'
  rw [hiff, mayHand_off hoff, mayHand_off hoff]
  trivial

end Runs

/-- Only the bodies that arrive are ever decoded. -/
lemma run_decodes [Toml] [Alloy] [Unicode] [RainFloat] {A A' : Abi} {D : Deployment}
    {es : List Event} (h : ∀ endpoint query body, .arrive endpoint query body ∈ es →
      @decodeRequestBody A body = @decodeRequestBody A' body) (w : World) :
    @World.run _ _ _ _ A D w es = @World.run _ _ _ _ A' D w es := by
  have hstep : ∀ (w : World), ∀ e ∈ es,
      @World.step _ _ _ _ A D w e = @World.step _ _ _ _ A' D w e := by
    intro w e he
    cases e with
    | arrive endpoint query body =>
      have hbody := h endpoint query body he
      have hhandler : @handler _ _ A D endpoint query body = @handler _ _ A' D endpoint query body := by
        cases endpoint with
        | v1 => simp only [handler, postSignedContext, serveBody, hbody]
        | pair schema => simp only [handler, postSignedContext, serveBody, hbody]
      simp only [World.step, hhandler]
    | _ => rfl
  clear h
  unfold World.run
  induction es generalizing w with
  | nil => rfl
  | cons e es ih =>
    have hone := hstep w e List.mem_cons_self
    simp only [Machine.run, hone]
    cases @World.step _ _ _ _ A' D w e with
    | none => rfl
    | some w' => exact ih w' fun w e he => hstep w e (List.mem_cons_of_mem _ he)

namespace Sample

/-- One order, twice in a batch. -/
def twice : ByteArray := RequestCodec.encodeBatch [order, order]

/-- The decoder of this one body, by comparison. -/
@[reducible] def twiceAbi : Abi where
  decodeBatch body :=
    if body.data.toList = twice.data.toList then .ok [order, order] else .error overrun
  decodeSingle _ := .error overrun

lemma twice_decodes : @decodeRequestBody standardAbi twice = .ok ⟨[order, order], true⟩ := by
  let _ : Abi := standardAbi
  have hread := RequestCodec.tuple.array.decodeParam_encodeParam (a := [order, order])
    (by decide +kernel)
  have hdecode : Abi.decodeBatch twice = .ok [order, order] := orOverrun_ok.mpr hread
  rw [decodeRequestBody, hdecode]

/-- Whatever arrives carries that body. -/
def brings (e : Event) : Bool :=
  match e with
  | .arrive _ _ body => body.data.toList = twice.data.toList
  | _ => true

lemma run_twice {es : List Event} (h : es.all brings = true) :
    @World.run _ _ _ _ standardAbi deployment (.boot bootSet) es =
      @World.run _ _ _ _ twiceAbi deployment (.boot bootSet) es := by
  refine run_decodes (fun endpoint query body hmem => ?_) _
  have hcompared : @decodeRequestBody twiceAbi twice = .ok ⟨[order, order], true⟩ := by
    let _ : Abi := twiceAbi
    have hdecode : Abi.decodeBatch twice = .ok [order, order] := if_pos rfl
    rw [decodeRequestBody, hdecode]
  have hbrings : body.data.toList = twice.data.toList :=
    of_decide_eq_true (List.all_eq_true.mp h _ hmem)
  have hbody : body = twice := ByteArray.ext (Array.ext' hbrings)
  rw [hbody, twice_decodes, hcompared]

/-- What the last request of a run answers for its first two items. -/
def answersTo (es : List Event) : Option (World × InFlight × OracleResponse × OracleResponse) :=
  (@World.run _ _ _ _ twiceAbi deployment (.boot bootSet) es).bind fun w =>
    w.requests.getLast?.bind fun q =>
      if q.endpoint = .pair .v5 ∧ q.body.data.toList = twice.data.toList then
        q.result.bind fun result => result.toOption.bind fun response =>
          (response.okAt 0).bind fun r => (response.okAt 1).map fun r' => (w, q, r, r')
      else none

lemma answersTo_some {es : List Event} {w : World} {q : InFlight} {r r' : OracleResponse}
    (hbodies : es.all brings = true) (h : answersTo es = some (w, q, r, r')) :
    @World.run _ _ _ _ standardAbi deployment (.boot bootSet) es = some w ∧ q ∈ w.requests ∧
      q.endpoint = .pair .v5 ∧ @decodeRequestBody standardAbi q.body = .ok ⟨[order, order], true⟩ ∧
      q.Delivered 0 r ∧ q.Delivered 1 r' := by
  obtain ⟨w₁, hrun, h⟩ := Option.bind_eq_some_iff.mp h
  obtain ⟨q₁, hq, h⟩ := Option.bind_eq_some_iff.mp h
  split at h
  · next hcond =>
    obtain ⟨result, hresult, h⟩ := Option.bind_eq_some_iff.mp h
    obtain ⟨response, hresponse, h⟩ := Option.bind_eq_some_iff.mp h
    obtain ⟨r₁, hr₁, h⟩ := Option.bind_eq_some_iff.mp h
    obtain ⟨r₂, hr₂, heq⟩ := Option.map_eq_some_iff.mp h
    cases heq
    have hbody : q.body = twice := ByteArray.ext (Array.ext' hcond.2)
    cases result with
    | error e => cases hresponse
    | ok response' =>
      obtain rfl := Option.some.inj hresponse
      exact ⟨(run_twice hbodies).trans hrun, List.mem_of_getLast? hq, hcond.1,
        hbody ▸ twice_decodes, ⟨_, hresult, hr₁⟩, _, hresult, hr₂⟩
  · cases h

/-- A newer frame with the same price, to be signed for five seconds longer. -/
def repriced : PriceFrame :=
  { price 1700000060000 with
    sourceTsUnixMs := 1700000005000
    executionDeadlineUnixMs := some 1700000035000 }

/-- One kind of move of the request `k`, again and again. -/
def again (n k : ℕ) (m : Move) (i : Input) : List Event := List.replicate n (.move k m i)

/-- The first request signs the first frame. When the second builds its first item, that
signature is still good for eleven seconds; when it builds its second, for nine. -/
def staggered : List Event :=
  [.frame (.price (price 1700000060000)), .arrive (.pair .v5) none twice] ++
    again 33 0 .main input ++
    [.frame (.price repriced), .arrive (.pair .v5) none twice] ++
    again 12 1 .main { input with nowUnixMs := 1700000019000 } ++
    again 22 1 .main { input with nowUnixMs := 1700000021000 }

theorem staggered_items_differ : ∃ w q r r',
    @World.run _ _ _ _ standardAbi deployment (.boot bootSet) staggered = some w ∧
      q ∈ w.requests ∧ q.endpoint = .pair .v5 ∧
      @decodeRequestBody standardAbi q.body = .ok ⟨[order, order], true⟩ ∧ q.Delivered 0 r ∧
      q.Delivered 1 r' ∧ r.context[publishTimeSlot]? ≠ r'.context[publishTimeSlot]? ∧
      r.context[expirySlot]? ≠ r'.context[expirySlot]? ∧ r.context ≠ r'.context := by
  have hdiffer : (answersTo staggered).any (fun a =>
      a.2.2.1.context[publishTimeSlot]? ≠ a.2.2.2.context[publishTimeSlot]? ∧
        a.2.2.1.context[expirySlot]? ≠ a.2.2.2.context[expirySlot]?) = true := by
    decide +kernel
  rw [Option.any_eq_true] at hdiffer
  obtain ⟨⟨w, q, r, r'⟩, hanswers, hslots⟩ := hdiffer
  obtain ⟨hpublish, hexpiry⟩ := of_decide_eq_true hslots
  obtain ⟨hrun, hq, hendpoint, hbody, hr, hr'⟩ := answersTo_some (by decide +kernel) hanswers
  exact ⟨w, q, r, r', hrun, hq, hendpoint, hbody, hr, hr', hpublish, hexpiry,
    fun heq => hpublish (by rw [heq])⟩

/-- Both items of an envelope batch look before either has stored. -/
def abreast : List Event :=
  [.frame (.price (price 1700000060000)), .arrive (.pair .v5) (some "allowFailure=true") twice] ++
    again 3 0 .main input ++ again 2 0 .start input ++ again 6 0 (.branch 0) input ++
    again 6 0 (.branch 1) input ++ again 6 0 (.branch 0) input ++ again 6 0 (.branch 1) input ++
    [.move 0 (.yield 0) input, .move 0 (.yield 1) input, .move 0 .finish input] ++
    again 10 0 .main input

/-- A lookup that found nothing, or another operation. -/
def cold (e : Entry Server Op Op.Answer) : Bool :=
  match e with
  | ⟨_, .reuseGet _, found⟩ => Option.isNone (α := Stored) found
  | _ => true

lemma mayHand_cold {own : ServerTrace} (h : own.all cold = true) (g : QuoteGeneration)
    (context : List B256) (expiry : UInt64) : mayHand deployment g context expiry own = none := by
  cases hlook : ownLookup own with
  | none => rw [mayHand, hlook]; rfl
  | some looked =>
    obtain ⟨now, found⟩ := looked
    obtain ⟨s, key, hmem⟩ := mem_of_ownLookup hlook
    have hfound : found.isNone = true := List.all_eq_true.mp h _ hmem
    rw [Option.isNone_iff_eq_none.mp hfound] at hlook
    exact mayHand_missed now hlook

theorem abreast_items_agree : ∃ w q r r',
    @World.run _ _ _ _ standardAbi deployment (.boot bootSet) abreast = some w ∧
      q ∈ w.requests ∧ q.Delivered 0 r ∧ q.Delivered 1 r' ∧ r.context = r'.context := by
  have hcold : (answersTo abreast).any (fun a => a.2.1.task.trace.all cold) = true := by
    decide +kernel
  rw [Option.any_eq_true] at hcold
  obtain ⟨⟨w, q, r, r'⟩, hanswers, hcold⟩ := hcold
  obtain ⟨hrun, hq, hendpoint, hbody, hr, hr'⟩ := answersTo_some (by decide +kernel) hanswers
  obtain ⟨-, ⟨lab, own, own', ⟨result, hresult, hshares⟩, hended, hended'⟩, hagree⟩ :=
    @identical_items_agree _ _ _ _ standardAbi deployment bootSet abreast w hrun q hq .v5 hendpoint
      _ hbody 0 1 order order rfl rfl rfl r r' hr hr'
  obtain ⟨slot, snap, context, expiry, -, -, -, hiff⟩ :=
    hagree lab own own' ⟨result, hresult, hshares⟩ hended hended'
  -- neither item found an entry
  have hmissed : ∀ {t : ServerTrace}, t.Sublist q.task.trace →
      mayHand deployment snap.generation context expiry t = none := fun hsub =>
    mayHand_cold (List.all_eq_true.mpr fun e he => List.all_eq_true.mp hcold e (hsub.subset he)) _ _ _
  refine ⟨w, q, r, r', hrun, hq, hr, hr', hiff.mpr ?_⟩
  rw [hmissed (hended.sublist hshares), hmissed (hended'.sublist hshares)]
  trivial

end Sample

end OracleServer
