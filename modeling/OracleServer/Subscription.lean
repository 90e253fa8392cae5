import OracleServer.PricingSession

/-! What pricing is subscribed to, folded from everything a session has sent, follows the
list of symbols the session last saw. Pricing is taken to apply a subscription as a union
and its end as a difference. -/
namespace OracleServer

namespace Outbound

def apply (subscribed : Finset Symbol) : Outbound → Finset Symbol
  | .frame (.subscribe _ assets) => subscribed ∪ assets.toFinset
  | .frame (.unsubscribe assets) => subscribed \ assets.toFinset
  | .frame (.pong _) | .pong _ => subscribed

/-- Never empty, and never about a symbol that is already as the frame wants it. -/
def Proper (subscribed : Finset Symbol) : Outbound → Prop
  | .frame (.subscribe _ assets) => assets ≠ [] ∧ assets.Nodup ∧ ∀ x ∈ assets, x ∉ subscribed
  | .frame (.unsubscribe assets) => assets ≠ [] ∧ assets.Nodup ∧ ∀ x ∈ assets, x ∈ subscribed
  | .frame (.pong _) | .pong _ => True

/-- A reply, which is not about the subscription. -/
def IsReply (m : Outbound) : Prop := (∃ ts, m = .frame (.pong ts)) ∨ ∃ payload, m = .pong payload

lemma IsReply.apply {m : Outbound} (h : m.IsReply) (subscribed : Finset Symbol) :
    m.apply subscribed = subscribed := by
  rcases h with ⟨ts, rfl⟩ | ⟨payload, rfl⟩ <;> rfl

lemma IsReply.proper {m : Outbound} (h : m.IsReply) (subscribed : Finset Symbol) :
    m.Proper subscribed := by
  rcases h with ⟨ts, rfl⟩ | ⟨payload, rfl⟩ <;> trivial

end Outbound

/-- The symbols pricing has a session subscribed to. -/
def subscribed (log : List Outbound) : Finset Symbol := log.foldl Outbound.apply ∅

def ProperLog (log : List Outbound) : Prop :=
  ∀ before m after, log = before ++ m :: after → m.Proper (subscribed before)

lemma subscribed_concat (log : List Outbound) (m : Outbound) :
    subscribed (log ++ [m]) = m.apply (subscribed log) := by
  simp [subscribed]

lemma properLog_nil : ProperLog [] := by
  intro before m after h
  simp at h

lemma ProperLog.concat {log : List Outbound} {m : Outbound} (h : ProperLog log)
    (hm : m.Proper (subscribed log)) : ProperLog (log ++ [m]) := by
  intro before m' after heq
  rcases List.eq_nil_or_concat after with rfl | ⟨rest, last, rfl⟩
  · obtain ⟨rfl, hlast⟩ := List.append_inj' heq rfl
    obtain rfl := List.head_eq_of_cons_eq hlast
    exact hm
  · rw [List.concat_eq_append, ← List.cons_append, ← List.append_assoc] at heq
    obtain ⟨hlog, -⟩ := List.append_inj' heq rfl
    exact h before m' rest hlog

namespace PricingSession

variable {s : PricingSession} {next : List Symbol}

/-- What holds at each await of the session. -/
def Tracks (s : PricingSession) : SessionPlace → Prop
  | .opening => s.log = [] ∧ s.sent = btreeSet s.last ∧ s.sent ≠ []
  | .selecting => subscribed s.log = s.sent.toFinset ∧ s.sent = btreeSet s.last ∧ s.sent ≠ []
  | .replying m => m.IsReply ∧ subscribed s.log = s.sent.toFinset ∧ s.sent = btreeSet s.last ∧
      s.sent ≠ []
  | .subscribing next => subscribed s.log = s.sent.toFinset ∧ next = btreeSet s.last ∧
      s.sent.Nodup ∧ s.sent ≠ [] ∧ s.added next ≠ []
  | .unsubscribing next => subscribed s.log = s.sent.toFinset ∪ next.toFinset ∧
      next = btreeSet s.last ∧ s.sent.Nodup ∧ s.sent ≠ [] ∧ s.removed next ≠ []

end PricingSession

/-- What holds of the task: while a session runs, its log is proper and tracks the list;
one that ended well leaves pricing with the list it saw last. -/
def FeedPhase.Tracks : FeedPhase → Prop
  | .session s place => ProperLog s.log ∧ s.Tracks place
  | .ended (some s) (.ok ()) => ProperLog s.log ∧ subscribed s.log = s.last.toFinset
  | .ended (some s) (.error _) => ProperLog s.log
  | _ => True

lemma toFinset_btreeSet (l : List Symbol) : (btreeSet l).toFinset = l.toFinset := by
  ext x
  simp [mem_btreeSet]

namespace PricingSession

variable {s : PricingSession} {next : List Symbol}

lemma settle_tracks (hlog : ProperLog s.log) (hsub : subscribed s.log = next.toFinset)
    (hnext : next = btreeSet s.last) : (s.settle next).Tracks := by
  unfold settle
  dsimp only
  split
  · exact ⟨hlog, by rw [hsub, hnext, toFinset_btreeSet]⟩
  · next hne => exact ⟨hlog, hsub, hnext, by simpa using hne⟩

lemma unsubscribe_tracks (hlog : ProperLog s.log)
    (hsub : subscribed s.log = s.sent.toFinset ∪ next.toFinset) (hnext : next = btreeSet s.last)
    (hnodup : s.sent.Nodup) (hsent : s.sent ≠ []) : (s.unsubscribe next).Tracks := by
  unfold unsubscribe
  split
  · next hne => exact ⟨hlog, hsub, hnext, hnodup, hsent, by simpa using hne⟩
  · next hnone =>
    apply settle_tracks hlog _ hnext
    have hsubset : s.sent.toFinset ⊆ next.toFinset := by
      intro x hx
      simp only [removed, Bool.not_eq_true', Bool.not_eq_false, List.isEmpty_iff,
        List.filter_eq_nil_iff] at hnone
      simpa using hnone x (List.mem_toFinset.mp hx)
    rw [hsub, Finset.union_eq_right.mpr hsubset]

lemma follow_tracks (hlog : ProperLog s.log) (h : s.Tracks .selecting) (version : ℕ)
    (assets : List Symbol) : (s.follow version assets).Tracks := by
  obtain ⟨hsub, hsent, hne⟩ := h
  have hnodup : s.sent.Nodup := hsent ▸ btreeSet_nodup _
  unfold follow
  dsimp only
  split
  · next hadded => exact ⟨hlog, hsub, rfl, hnodup, hne, by simpa using hadded⟩
  · next hnone =>
    refine unsubscribe_tracks (s := { s with seen := version, last := assets }) hlog ?_ rfl
      hnodup hne
    have hsubset : (btreeSet assets).toFinset ⊆ s.sent.toFinset := by
      intro x hx
      simp only [added, Bool.not_eq_true', Bool.not_eq_false, List.isEmpty_iff,
        List.filter_eq_nil_iff] at hnone
      simpa using hnone x (List.mem_toFinset.mp hx)
    rw [Finset.union_eq_left.mpr hsubset]
    exact hsub

/-- Whatever the task is about to send is proper, and moves the fold on. -/
lemma pending_proper {cfg : FeedConfig} {place : SessionPlace} {m : Outbound}
    (h : s.Tracks place) (hm : s.pending cfg place = some m) : m.Proper (subscribed s.log) := by
  cases place with
  | opening =>
    obtain ⟨hlog, hsent, hne⟩ := h
    obtain rfl := Option.some.inj hm
    refine ⟨hne, hsent ▸ btreeSet_nodup _, fun x _ => ?_⟩
    simp [hlog, subscribed]
  | selecting => cases hm
  | subscribing next =>
    obtain ⟨hsub, hnext, -, -, hne⟩ := h
    obtain rfl := Option.some.inj hm
    refine ⟨hne, (hnext ▸ btreeSet_nodup _).filter _, fun x hx => ?_⟩
    simpa [hsub] using (List.mem_filter.mp hx).2
  | unsubscribing next =>
    obtain ⟨hsub, -, hnodup, -, hne⟩ := h
    obtain rfl := Option.some.inj hm
    refine ⟨hne, hnodup.filter _, fun x hx => ?_⟩
    simp [hsub, (List.mem_filter.mp hx).1]
  | replying m' =>
    obtain rfl := Option.some.inj hm
    exact h.1.proper _

lemma resume_tracks {cfg : FeedConfig} {place : SessionPlace} {m : Outbound}
    (hlog : ProperLog s.log) (h : s.Tracks place) (hm : s.pending cfg place = some m) :
    ((s.push m).resume place).Tracks := by
  have hlog' : ProperLog (s.push m).log := hlog.concat (pending_proper h hm)
  have hfold : subscribed (s.push m).log = m.apply (subscribed s.log) := subscribed_concat _ _
  cases place with
  | opening =>
    obtain ⟨hempty, hsent, hne⟩ := h
    obtain rfl := Option.some.inj hm
    refine ⟨hlog', ?_, hsent, hne⟩
    rw [hfold, hempty]
    simp [Outbound.apply, subscribed, push]
  | selecting => cases hm
  | subscribing next =>
    obtain ⟨hsub, hnext, hnodup, hne, -⟩ := h
    obtain rfl := Option.some.inj hm
    refine unsubscribe_tracks hlog' ?_ hnext hnodup hne
    rw [hfold, hsub]
    ext x
    simp only [Outbound.apply, added, push, Finset.mem_union, List.mem_toFinset, List.mem_filter,
      decide_eq_true_eq]
    tauto
  | unsubscribing next =>
    obtain ⟨hsub, hnext, -, -, -⟩ := h
    obtain rfl := Option.some.inj hm
    refine settle_tracks hlog' ?_ hnext
    rw [hfold, hsub]
    ext x
    simp only [Outbound.apply, removed, Finset.mem_sdiff, Finset.mem_union, List.mem_toFinset,
      List.mem_filter, decide_eq_true_eq]
    tauto
  | replying m' =>
    obtain ⟨hreply, hsub, hsent, hne⟩ := h
    obtain rfl := Option.some.inj hm
    refine ⟨hlog', ?_, hsent, hne⟩
    rw [hfold, hreply.apply, hsub]
    rfl

lemma fail_tracks {place : SessionPlace} (e : ClientError) (hlog : ProperLog s.log)
    (h : s.Tracks place) : (s.fail e place).Tracks := by
  cases place with
  | replying m => exact ⟨hlog, h.2⟩
  | _ => exact hlog

end PricingSession

namespace Feed

lemma start_tracks (f : Feed) : f.start.Tracks := by
  unfold start
  dsimp only
  split
  · next hempty =>
    have hlist : btreeSet f.client.assets = [] := List.isEmpty_iff.mp hempty
    refine ⟨properLog_nil, ?_⟩
    rw [← toFinset_btreeSet, hlist]
    rfl
  · next hne => exact ⟨properLog_nil, rfl, rfl, by simpa using hne⟩

/-- Only a ping is answered. -/
lemma reply_isReply {c : QuoteCache} {assets : Option (List Symbol)} {frame : ServerFrame}
    {reply : ClientFrame} (h : (c.applyServerFrame assets frame).1 = some reply) :
    (Outbound.frame reply).IsReply := by
  unfold QuoteCache.applyServerFrame at h
  split at h
  · dsimp only at h
    split at h <;> cases h
  · split at h
    · split at h <;> cases h
    · cases h
  · split at h <;> cases h
  · next ts =>
    obtain rfl := Option.some.inj h
    exact .inl ⟨ts, rfl⟩

variable [Cbor] {cfg : FeedConfig} {f f' : Feed}

lemma receive_tracks {s : PricingSession} (hphase : f.phase = .session s .selecting)
    (h : f.phase.Tracks) (m : Option (Except String WsMessage)) : (f.receive s m).phase.Tracks := by
  have hkept := h
  rw [hphase] at h
  obtain ⟨hlog, hsub, hsent, hne⟩ := h
  unfold receive
  split
  · exact ⟨hlog, by rw [hsub, hsent, toFinset_btreeSet]⟩
  · exact hlog
  · exact hkept
  · next payload => exact ⟨hlog, .inr ⟨payload, rfl⟩, hsub, hsent, hne⟩
  · split
    · exact hkept
    · next frame _ =>
      dsimp only
      split
      · next reply hreply =>
        exact ⟨hlog, reply_isReply hreply, hsub, hsent, hne⟩
      · exact hkept

/-- One event keeps the log in step with the list. -/
theorem tracks_step {e : FeedEvent} (h : f.phase.Tracks) (hstep : f.step cfg e = some f') :
    f'.phase.Tracks := by
  cases e with
  | publish assets => exact Option.some.inj hstep ▸ h
  | forget symbols => exact Option.some.inj hstep ▸ h
  | close => exact Option.some.inj hstep ▸ h
  | check =>
    simp only [step] at hstep
    split at hstep
    · split at hstep
      · exact Option.some.inj hstep ▸ trivial
      · split at hstep
        · exact Option.some.inj hstep ▸ trivial
        · cases hstep
    · cases hstep
  | dial =>
    simp only [step] at hstep
    split at hstep
    · split at hstep
      · exact Option.some.inj hstep ▸ trivial
      · exact Option.some.inj hstep ▸ trivial
    · cases hstep
  | connect result =>
    simp only [step] at hstep
    split at hstep
    · exact Option.some.inj hstep ▸ f.start_tracks
    · exact Option.some.inj hstep ▸ trivial
    · cases hstep
  | send result =>
    simp only [step] at hstep
    split at hstep
    · next s place hphase =>
      rw [hphase] at h
      obtain ⟨hlog, htracks⟩ := h
      split at hstep
      · next m hm =>
        obtain rfl := Option.some.inj hstep
        exact PricingSession.resume_tracks hlog htracks hm
      · next e _ =>
        obtain rfl := Option.some.inj hstep
        exact PricingSession.fail_tracks e hlog htracks
      · cases hstep
    · cases hstep
  | changed =>
    simp only [step] at hstep
    split at hstep
    · next s hphase =>
      rw [hphase] at h
      split at hstep
      · cases hstep
      · split at hstep
        · obtain rfl := Option.some.inj hstep
          exact PricingSession.follow_tracks h.1 h.2 _ _
        · split at hstep
          · exact Option.some.inj hstep ▸ h
          · cases hstep
    · cases hstep
  | message m =>
    simp only [step] at hstep
    split at hstep
    · next s hphase =>
      obtain rfl := Option.some.inj hstep
      exact receive_tracks hphase h m
    · cases hstep
  | deadline =>
    simp only [step] at hstep
    split at hstep
    · next s hphase =>
      rw [hphase] at h
      exact Option.some.inj hstep ▸ h.1
    · cases hstep
  | resume =>
    simp only [step] at hstep
    split at hstep
    · exact Option.some.inj hstep ▸ trivial
    · exact Option.some.inj hstep ▸ trivial
    · cases hstep
  | wake =>
    simp only [step] at hstep
    split at hstep
    · exact Option.some.inj hstep ▸ trivial
    · cases hstep

theorem run_tracks {assets : List Symbol} {es : List FeedEvent} (h : run cfg assets es = some f) :
    f.phase.Tracks :=
  Machine.run_invariant (I := fun f : Feed => f.phase.Tracks)
    (fun _ _ _ (_ : True) hf hstep => tracks_step hf hstep) (fun _ _ => trivial)
    (show (boot cfg assets).phase.Tracks from trivial) h

end Feed

lemma btreeSet_eq_nil {l : List Symbol} : btreeSet l = [] ↔ l = [] := by
  rw [List.eq_nil_iff_forall_not_mem, List.eq_nil_iff_forall_not_mem]
  simp only [mem_btreeSet]

namespace PricingSession

variable {s : PricingSession} {place : SessionPlace}

/-- Between two changes pricing has exactly the list last seen. -/
lemma Tracks.follows (h : s.Tracks place)
    (hplace : place = .selecting ∨ ∃ m, place = .replying m) :
    subscribed s.log = s.last.toFinset := by
  rcases hplace with rfl | ⟨m, rfl⟩
  · rw [h.1, h.2.1, toFinset_btreeSet]
  · rw [h.2.1, h.2.2.1, toFinset_btreeSet]

/-- A session that goes on is subscribed to something, once it has sent anything. -/
lemma Tracks.nonempty (h : s.Tracks place) (hempty : subscribed s.log = ∅) :
    place = .opening ∧ s.log = [] := by
  cases place with
  | opening => exact ⟨rfl, h.1⟩
  | selecting =>
    rw [h.1, List.toFinset_eq_empty_iff] at hempty
    exact absurd hempty h.2.2
  | replying m =>
    rw [h.2.1, List.toFinset_eq_empty_iff] at hempty
    exact absurd hempty h.2.2.2
  | subscribing next =>
    rw [h.1, List.toFinset_eq_empty_iff] at hempty
    exact absurd hempty h.2.2.2.1
  | unsubscribing next =>
    rw [h.1, Finset.union_eq_empty, List.toFinset_eq_empty_iff] at hempty
    exact absurd hempty.1 h.2.2.2.1

/-- An empty list leaves one frame to send, the last. -/
lemma Tracks.last_frame (h : s.Tracks place) (hlast : s.last = []) :
    place = .unsubscribing [] := by
  have hnil : btreeSet s.last = [] := btreeSet_eq_nil.mpr hlast
  cases place with
  | opening => exact absurd (h.2.1.trans hnil) h.2.2
  | selecting => exact absurd (h.2.1.trans hnil) h.2.2
  | replying m => exact absurd (h.2.2.1.trans hnil) h.2.2.2
  | subscribing next =>
    obtain ⟨-, hnext, -, -, hadded⟩ := h
    rw [hnext, hnil] at hadded
    simp [added] at hadded
  | unsubscribing next => rw [h.2.1, hnil]

end PricingSession

namespace Feed

variable [Cbor] {cfg : FeedConfig} {f f' : Feed}

/-- The session that waits for its last frame to be sent. -/
lemma step_unsubscribing {s : PricingSession} {e : FeedEvent}
    (hphase : f.phase = .session s (.unsubscribing [])) (hstep : f.step cfg e = some f') :
    f'.phase = f.phase ∨ (∃ err, e = .send (.error err)) ∨
      ∃ s', f'.phase = .ended (some s') (.ok ()) ∧ s'.last = s.last := by
  cases e with
  | publish assets => exact .inl (Option.some.inj hstep ▸ rfl)
  | forget symbols => exact .inl (Option.some.inj hstep ▸ rfl)
  | close => exact .inl (Option.some.inj hstep ▸ rfl)
  | send result =>
    cases result with
    | error err => exact .inr (.inl ⟨err, rfl⟩)
    | ok u =>
      simp only [step, hphase, PricingSession.pending, PricingSession.resume] at hstep
      obtain rfl := Option.some.inj hstep
      exact .inr (.inr ⟨_, rfl, rfl⟩)
  | _ => simp [step, hphase] at hstep

lemma step_ended {s : Option PricingSession} {result : Except ClientError Unit} {e : FeedEvent}
    (hphase : f.phase = .ended s result) (hstep : f.step cfg e = some f') :
    f'.phase = f.phase ∨ f'.phase = .waiting ∨ f'.phase = .sleeping := by
  cases e with
  | publish assets => exact .inl (Option.some.inj hstep ▸ rfl)
  | forget symbols => exact .inl (Option.some.inj hstep ▸ rfl)
  | close => exact .inl (Option.some.inj hstep ▸ rfl)
  | resume =>
    cases result with
    | ok u =>
      simp only [step, hphase] at hstep
      exact .inr (.inl (Option.some.inj hstep ▸ rfl))
    | error err =>
      simp only [step, hphase] at hstep
      exact .inr (.inr (Option.some.inj hstep ▸ rfl))
  | _ => simp [step, hphase] at hstep

/-- The pricing subscription follows the token set. -/
theorem subscription_follows_list {assets : List Symbol} {es : List FeedEvent}
    (h : run cfg assets es = some f) :
    (∀ s place, f.phase = .session s place → ProperLog s.log ∧
      ((place = .selecting ∨ ∃ m, place = .replying m) → subscribed s.log = s.last.toFinset) ∧
      (subscribed s.log = ∅ → place = .opening ∧ s.log = []) ∧
      (s.last = [] → ∀ e f', f.step cfg e = some f' → f'.phase = f.phase ∨
        (∃ err, e = .send (.error err)) ∨
        ∃ s', f'.phase = .ended (some s') (.ok ()) ∧ subscribed s'.log = ∅)) ∧
    (∀ s result, f.phase = .ended (some s) result → ProperLog s.log ∧
      (result = .ok () → subscribed s.log = s.last.toFinset) ∧
      ∀ e f', f.step cfg e = some f' →
        f'.phase = f.phase ∨ f'.phase = .waiting ∨ f'.phase = .sleeping) ∧
    (f.phase = .connecting → f.client.assets = [] → ∀ f', f.step cfg (.connect (.ok ())) = some f' →
      ∃ s, f'.phase = .ended (some s) (.ok ()) ∧ s.log = []) := by
  have htracks := run_tracks h
  refine ⟨fun s place hphase => ?_, fun s result hphase => ?_, fun hphase hempty f' hstep => ?_⟩
  · rw [hphase] at htracks
    obtain ⟨hlog, hs⟩ := htracks
    refine ⟨hlog, hs.follows, hs.nonempty, fun hlast e f' hstep => ?_⟩
    have hafter := tracks_step (by rw [hphase]; exact ⟨hlog, hs⟩) hstep
    obtain rfl := hs.last_frame hlast
    rcases step_unsubscribing hphase hstep with hsame | hfail | ⟨s', hended, hlast'⟩
    · exact .inl hsame
    · exact .inr (.inl hfail)
    · rw [hended] at hafter
      refine .inr (.inr ⟨s', hended, ?_⟩)
      rw [hafter.2, hlast', hlast]
      rfl
  · refine ⟨?_, ?_, fun e f' hstep => step_ended hphase hstep⟩
    · rw [hphase] at htracks
      cases result with
      | ok u => exact htracks.1
      | error err => exact htracks
    · rintro rfl
      rw [hphase] at htracks
      exact htracks.2
  · simp only [step, hphase] at hstep
    obtain rfl := Option.some.inj hstep
    have hnil : btreeSet f.client.assets = [] := btreeSet_eq_nil.mpr hempty
    simp [start, hnil]

end Feed

namespace Sample

scoped instance cbor : Cbor := ⟨fun _ => .error "unexpected end of file"⟩

def feedConfig : FeedConfig := ⟨"st0x-oracle-server", 1000000000, 30000000000⟩

/-- One token joins and another leaves while the opening frame is on its way. -/
def tokenChange : List FeedEvent :=
  [.check, .dial, .connect (.ok ()), .publish ["wtMSTR", "wtCOIN"], .publish ["wtMSTR"],
    .send (.ok ()), .message (some (.ok (.ping ⟨#[1]⟩))), .send (.ok ()), .changed, .send (.ok ()),
    .send (.ok ())]

/-- The list of a session that waits for the next thing to happen. -/
def selectingList (f : Feed) : Option (List Symbol) :=
  match f.phase with
  | .session s .selecting => some s.last
  | _ => none

theorem token_change_is_followed : ∃ f s, Feed.run feedConfig ["wtCOIN"] tokenChange = some f ∧
    f.phase = .session s .selecting ∧ subscribed s.log = {"wtMSTR"} := by
  have hrun : (Feed.run feedConfig ["wtCOIN"] tokenChange).any
      (fun f => selectingList f = some ["wtMSTR"]) = true := by decide +kernel
  obtain ⟨f, hf, hlist⟩ := (Option.any_eq_true _ _).mp hrun
  have hlist : selectingList f = some ["wtMSTR"] := of_decide_eq_true hlist
  unfold selectingList at hlist
  split at hlist
  · next s hphase =>
    have hfollows := ((Feed.subscription_follows_list hf).1 s .selecting hphase).2.1 (.inl rfl)
    refine ⟨f, s, hf, hphase, ?_⟩
    rw [hfollows, Option.some.inj hlist]
    rfl
  · cases hlist

end Sample

end OracleServer
