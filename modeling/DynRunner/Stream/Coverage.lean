import DynRunner.Ledger.Convergence
import DynRunner.Lib.Transfer
import DynRunner.Stream.Carry

/-!
# When a finished stream is complete

The stream that the requester tracks is a resumable transfer (`Transfer`): the captured keys are
promised, the packages under way are its chunks, and what the responder still has to send are
the keys behind the position of its plan. As long as every step is harmless the transfer stays
sound, and a package marked done closes it.
-/

namespace DynRunner

open HashMap InboundSnapshotStreams SentPackage SnapshotStreamPlan SnapshotStreamResponder
open Exchange StreamCodec List

variable {I : Type}

namespace SentPackage

variable [StreamCodec I]

/-- The keys that a package carries. -/
def keys (p : SentPackage I) : List TaskHash :=
  match decodeStreamPayload p.frame.payload with
  | .ok snap => snap.tasks.keys
  | .error _ => []

/-- A package as a chunk of its transfer. -/
def chunk (p : SentPackage I) : Chunk TaskHash where
  carried := {k | k ∈ p.keys}
  cursor := cursorBound p.frame.cursor
  closes := if p.frame.done then some {k | k ∈ p.captured} else none

/-- The packages of one stream. -/
def ofStream (streamId : String) (l : List (SentPackage I)) : List (SentPackage I) :=
  l.filter fun p => decide (p.frame.streamId = streamId)

variable {l : List (SentPackage I)}

/-- The packages of a stream in two parts. -/
theorem ofStream_append {streamId : String} {l' : List (SentPackage I)} :
    ofStream streamId (l ++ l') = ofStream streamId l ++ ofStream streamId l' :=
  filter_append l l'

variable {streamId : String} {p : SentPackage I}

/-- A package of the stream comes first. -/
theorem ofStream_cons_self (h : p.frame.streamId = streamId) :
    ofStream streamId (p :: l) = p :: ofStream streamId l :=
  filter_cons_of_pos (by simpa using h)

/-- A package of another stream is left out. -/
theorem ofStream_cons_of_ne (h : p.frame.streamId ≠ streamId) :
    ofStream streamId (p :: l) = ofStream streamId l :=
  filter_cons_of_neg (by simpa using h)

/-- A list without packages of a stream. -/
theorem ofStream_eq_nil (h : ∀ p ∈ l, p.frame.streamId ≠ streamId) : ofStream streamId l = [] :=
  filter_eq_nil_iff.mpr fun p hp => by simpa using h p hp

end SentPackage

namespace Exchange

variable [StreamCodec I]

/-- The tracked stream as a transfer. -/
def transfer (x : Exchange I) (t : InboundProgress) : Transfer TaskHash where
  promised := {k | k ∈ x.captured t.streamId}
  received := {k | k ∈ x.received t.streamId}
  cursor := cursorBound t.cursor
  flight := (ofStream t.streamId x.packages).map chunk
  remaining := (x.responder.streams.lookup t.streamId).map fun s => s.plan.rest

/-- Nothing is known about a stream. -/
structure Unused (x : Exchange I) (streamId : String) : Prop where
  stream : x.responder.streams.lookup streamId = none
  packages : ∀ p ∈ x.packages, p.frame.streamId ≠ streamId
  requests : ∀ q ∈ x.requests, q.streamId ≠ streamId
  captured : x.captured streamId = []

/-- The tracked stream leaves no gap. -/
structure Tracks (x : Exchange I) (t : InboundProgress) : Prop where
  minted : ∃ n < x.tracker.mint, t.streamId = mintedId x.tracker.nodeId n
  sound : (x.transfer t).Sound
  requests : ∀ q ∈ x.requests, q.streamId = t.streamId →
    cursorBound q.resumeAfter ≤ cursorBound t.cursor
  held : ∀ k ∈ x.captured t.streamId, x.ledger.containsTask k = true

/-- What holds of one stream of the responder. -/
structure Serves (x : Exchange I) (streamId : String) (s : OutboundStream) : Prop where
  sorted : s.plan.keys.Pairwise (· ≤ ·)
  held : ∀ k ∈ s.plan.keys, x.ledger.containsTask k = true
  mine : ∀ n, streamId = mintedId x.tracker.nodeId n →
    s.requester = x.tracker.nodeId

/-- What holds of one package. -/
structure Genuine (x : Exchange I) (p : SentPackage I) : Prop where
  sender : p.frame.senderId = x.responder.nodeId
  decodes : ∃ snap, decodeStreamPayload p.frame.payload = .ok snap
  bare : p.frame.cursor = none → p.keys = []

/-- **The invariant of harmless runs.** -/
structure Sound (x : Exchange I) : Prop where
  serves : ∀ streamId s, x.responder.streams.lookup streamId = some s → x.Serves streamId s
  genuine : ∀ p ∈ x.packages, x.Genuine p
  unused : ∀ n, x.tracker.mint ≤ n →
    x.Unused (mintedId x.tracker.nodeId n)
  tracked : ∀ t, x.tracker.byResponder.lookup x.responder.nodeId = some t → x.Tracks t

variable {streamId : String} {t : InboundProgress} {ledger : ClusterState I} {n now : ℕ}

variable {x x' : Exchange I}

/-- A stream is served as long as its keys are known. -/
theorem Serves.mono {s : OutboundStream} (h : x.Serves streamId s)
    (hnode : x'.tracker.nodeId = x.tracker.nodeId)
    (hledger : ∀ k, x.ledger.containsTask k = true → x'.ledger.containsTask k = true) :
    x'.Serves streamId s where
  sorted := h.sorted
  held := fun k hk => hledger k (h.held k hk)
  mine := by
    rw [hnode]
    exact h.mine

/-- A package stays genuine. -/
theorem Genuine.mono {p : SentPackage I} (h : x.Genuine p)
    (hnode : x'.responder.nodeId = x.responder.nodeId) : x'.Genuine p :=
  ⟨h.sender.trans hnode.symm, h.decodes, h.bare⟩

/-- A step that does not concern the tracked stream keeps it sound; the responder may drop it. -/
theorem Tracks.frame (h : x.Tracks t)
    (hnode : x'.tracker.nodeId = x.tracker.nodeId) (hmint : x.tracker.mint ≤ x'.tracker.mint)
    (hcaptured : x'.captured t.streamId = x.captured t.streamId)
    (hreceived : x'.received t.streamId = x.received t.streamId)
    (hflight : ofStream t.streamId x'.packages = ofStream t.streamId x.packages)
    (hstream : x'.responder.streams.lookup t.streamId = x.responder.streams.lookup t.streamId ∨
      x'.responder.streams.lookup t.streamId = none)
    (hrequests : ∀ q ∈ x'.requests, q.streamId = t.streamId → q ∈ x.requests)
    (hledger : ∀ k, x.ledger.containsTask k = true → x'.ledger.containsTask k = true) :
    x'.Tracks t where
  minted := by
    obtain ⟨n, hn, hid⟩ := h.minted
    exact ⟨n, hn.trans_le hmint, by rw [hnode]; exact hid⟩
  sound := by
    rcases hstream with hsame | hnone
    · have hview : x'.transfer t = x.transfer t := by
        rw [transfer, hcaptured, hreceived, hflight, hsame]
        rfl
      rw [hview]
      exact h.sound
    · have hview : x'.transfer t = { x.transfer t with remaining := none } := by
        rw [transfer, hcaptured, hreceived, hflight, hnone]
        rfl
      rw [hview]
      exact h.sound.abandon
  requests := fun q hq hid => h.requests q (hrequests q hq hid) hid
  held := by
    rw [hcaptured]
    exact fun k hk => hledger k (h.held k hk)

/-- A step that opens no stream and sends nothing keeps the invariant, if it keeps the tracked
stream. -/
theorem Sound.frame (hx : x.Sound) (hresponder : x'.responder.nodeId = x.responder.nodeId)
    (hnode : x'.tracker.nodeId = x.tracker.nodeId) (hmint : x.tracker.mint ≤ x'.tracker.mint)
    (hstreams : ∀ id s, x'.responder.streams.lookup id = some s →
      x.responder.streams.lookup id = some s)
    (hpackages : ∀ p ∈ x'.packages, p ∈ x.packages) (hrequests : x'.requests = x.requests)
    (hcaptured : x'.captured = x.captured)
    (hledger : ∀ k, x.ledger.containsTask k = true → x'.ledger.containsTask k = true)
    (htracked : ∀ t, x'.tracker.byResponder.lookup x.responder.nodeId = some t → x'.Tracks t) :
    x'.Sound where
  serves := fun id s hs => (hx.serves id s (hstreams id s hs)).mono hnode hledger
  genuine := fun p hp => (hx.genuine p (hpackages p hp)).mono hresponder
  unused := fun n hn => by
    have hunused := hx.unused n (hmint.trans hn)
    rw [hnode]
    refine ⟨Option.eq_none_iff_forall_not_mem.mpr fun s hs => ?_,
      fun p hp => hunused.packages p (hpackages p hp), by rw [hrequests]; exact hunused.requests,
      by rw [hcaptured]; exact hunused.captured⟩
    have hsome := hstreams _ s hs
    rw [hunused.stream] at hsome
    cases hsome
  tracked := by
    rw [hresponder]
    exact htracked

/-- The ids of two minted streams differ. -/
theorem Tracks.ne_minted (h : x.Tracks t) (hn : x.tracker.mint ≤ n) :
    t.streamId ≠ mintedId x.tracker.nodeId n := by
  obtain ⟨m, hm, hid⟩ := h.minted
  intro heq
  have hmn := mintedId_injective (hid.symm.trans heq)
  omega

/-! ## The requester -/

/-- Asking for a stream, or asking again. -/
theorem Sound.request (hx : x.Sound) (now : ℕ) (taskRanges : List ℕ) :
    (x.request now taskRanges).Sound := by
  rcases requestParams_cases with
    ⟨p, hp, hparams⟩ | hparams
  · -- The request repeats the cursor of the tracked stream.
    have hx' : x.request now taskRanges =
        { x with requests := ⟨p.streamId, p.cursor, taskRanges⟩ :: x.requests } := by
      rw [Exchange.request, hparams]
    have htracks := hx.tracked p hp
    rw [hx']
    refine ⟨fun id s h => (hx.serves id s h).mono rfl fun _ h => h,
      fun p' hp' => (hx.genuine p' hp').mono rfl,
      fun n hn => ?_, fun t ht => ?_⟩
    · have hunused := hx.unused n hn
      exact { hunused with
        requests := forall_mem_cons.mpr ⟨htracks.ne_minted hn, hunused.requests⟩ }
    · obtain rfl : p = t := Option.some.inj (hp.symm.trans ht)
      exact { htracks with
        requests := forall_mem_cons.mpr ⟨fun _ => le_rfl, htracks.requests⟩ }
  · -- A new stream, of which nobody has heard.
    have hx' : x.request now taskRanges = { x with
        tracker := { x.tracker with
          mint := x.tracker.mint + 1
          byResponder := x.tracker.byResponder.insert x.responder.nodeId
            ⟨mintedId x.tracker.nodeId x.tracker.mint, none, false, 0, now⟩ }
        requests := ⟨mintedId x.tracker.nodeId x.tracker.mint, none,
          taskRanges⟩ :: x.requests } := by
      rw [Exchange.request, hparams]
    have hfresh := hx.unused x.tracker.mint le_rfl
    rw [hx']
    refine ⟨fun id s h => (hx.serves id s h).mono rfl fun _ h => h,
      fun p' hp' => (hx.genuine p' hp').mono rfl,
      fun n hn => ?_, fun t ht => ?_⟩
    · have hn' : x.tracker.mint < n := hn
      have hunused := hx.unused n hn'.le
      refine { hunused with requests := forall_mem_cons.mpr ⟨fun heq => ?_, hunused.requests⟩ }
      exact hn'.ne (mintedId_injective heq)
    · obtain rfl : _ = t := Option.some.inj
        ((AList.lookup_insert x.tracker.byResponder).symm.trans ht)
      refine ⟨⟨x.tracker.mint, Nat.lt_succ_self _, rfl⟩, Transfer.sound_of_idle ?_ ?_, ?_, ?_⟩
      · change {k | k ∈ x.captured _} = ∅
        rw [hfresh.captured]
        ext k
        simp
      · change (ofStream _ x.packages).map chunk = []
        rw [ofStream_eq_nil hfresh.packages, map_nil]
      · refine forall_mem_cons.mpr ⟨fun _ => le_rfl, fun q hq hid => ?_⟩
        exact (hfresh.requests q hq hid).elim
      · rw [hfresh.captured]
        intro k hk
        cases hk

/-! ## The responder -/

section Responder

/-- The responder drops streams. -/
theorem Sound.drop (hx : x.Sound) (hnode : r.nodeId = x.responder.nodeId) (hdrop : ∀ streamId,
      r.streams.lookup streamId = x.responder.streams.lookup streamId ∨
        r.streams.lookup streamId = none) : Sound { x with responder := r } := by
  refine hx.frame hnode rfl le_rfl (fun id s hs => ?_) (fun _ h => h) rfl rfl (fun _ h => h)
    fun t ht => ?_
  · rcases hdrop id with hsame | hnone
    · exact hsame.symm.trans hs
    · exact (Option.some_ne_none s (hs.symm.trans hnone)).elim
  · exact (hx.tracked t ht).frame rfl le_rfl rfl rfl rfl (hdrop t.streamId) (fun _ h _ => h)
      fun _ h => h

/-- Aborting a stream keeps the exchange sound. -/
theorem Sound.abort (hx : x.Sound) (streamId : String) : (x.abort streamId).Sound := by
  refine hx.drop ?_ fun other => ?_
  · unfold abortStream
    split <;> rfl
  · rw [lookup_abortStream]
    split
    · exact .inr rfl
    · exact .inl rfl

variable [DefaultHasher]

variable {q : StreamRequest} {s : OutboundStream} {r : SnapshotStreamResponder} {requester : String}
  {isObserver : Bool}

/-- The streams after a request, whoever sent it. -/
theorem Sound.serves_acceptRequest (hx : x.Sound)
    (hr : x.responder.acceptRequest x.ledger now requester isObserver q.streamId q.resumeAfter
      q.taskRanges = r)
    (hmine : ∀ n, q.streamId = mintedId x.tracker.nodeId n → requester = x.tracker.nodeId)
    (hs : r.streams.lookup streamId = some s) : x.Serves streamId s := by
  by_cases hid : streamId = q.streamId
  · subst hid
    obtain ⟨_, ⟨s₀, hs₀, _, hstreams⟩ | ⟨hnone, _, hstreams⟩ | ⟨_, _, hstreams⟩⟩ :=
      acceptRequest_cases hr
    · rw [hstreams, lookup_insert_eq, if_pos rfl, Option.some.injEq] at hs
      subst hs
      have hserves := hx.serves _ s₀ hs₀
      exact ⟨hserves.sorted, hserves.held, hserves.mine⟩
    · rw [hstreams, hnone] at hs
      cases hs
    · rw [hstreams, lookup_insert_eq, if_pos rfl, Option.some.injEq] at hs
      subst hs
      exact ⟨pairwise_insertionSort _ _, fun k hk => (mem_new_keys.mp hk).1, hmine⟩
  · rcases lookup_acceptRequest_of_ne hr hid with hsame | hnone
    · exact hx.serves streamId s (hsame.symm.trans hs)
    · rw [hnone] at hs
      cases hs

/-- A request that does not concern a stream leaves it alone, or finds it expired. -/
theorem Unused.acceptRequest (h : x.Unused streamId)
    (hr : x.responder.acceptRequest x.ledger now requester isObserver q.streamId q.resumeAfter
      q.taskRanges = r) (hne : streamId ≠ q.streamId) : r.streams.lookup streamId = none := by
  rcases lookup_acceptRequest_of_ne hr hne with hsame | hnone
  · exact hsame.trans h.stream
  · exact hnone

/-- The request of another node. -/
theorem Sound.acceptOther (hx : x.Sound) (now : ℕ) (requester : String) (isObserver : Bool)
    (hforeign : ∀ n, q.streamId ≠ mintedId x.tracker.nodeId n) :
    (x.acceptOther now requester isObserver q).Sound := by
  have hnode : (x.acceptOther now requester isObserver q).responder.nodeId = x.responder.nodeId :=
    (acceptRequest_cases rfl).1
  refine ⟨fun id s hs => ?_, fun p hp => (hx.genuine p hp).mono hnode, fun n hn => ?_,
    fun t ht => ?_⟩
  · exact (hx.serves_acceptRequest rfl (fun n hn => (hforeign n hn).elim) hs).mono rfl fun _ h => h
  · have hunused := hx.unused n hn
    exact ⟨hunused.acceptRequest rfl (hforeign n).symm, hunused.packages,
      hunused.requests, hunused.captured⟩
  · have htracks := hx.tracked t (by rw [← hnode]; exact ht)
    obtain ⟨n, _, hid⟩ := htracks.minted
    refine htracks.frame rfl le_rfl rfl rfl rfl ?_ (fun _ hq _ => hq) fun _ h => h
    exact lookup_acceptRequest_of_ne rfl (hid ▸ (hforeign n).symm)

/-- The tracked stream when one of its own requests arrives. -/
theorem Tracks.accept (htracks : x.Tracks t)
    (hq : q ∈ x.requests) (hid : t.streamId = q.streamId) (hopen : x.opens now q.streamId = true →
      (∀ p ∈ x.packages, p.frame.streamId ≠ q.streamId) ∧ t.cursor = q.resumeAfter) :
    (x.accept now q).Tracks t := by
  have hopens : x.opens now q.streamId =
      (((x.responder.expireIdle now).streams.lookup q.streamId).isNone &&
        decide ((x.responder.expireIdle now).streams.keys.length < maxActiveStreams)) := rfl
  have hr : x.responder.acceptRequest x.ledger now x.tracker.nodeId x.requesterIsObserver
      q.streamId q.resumeAfter q.taskRanges = (x.accept now q).responder := rfl
  obtain ⟨_, ⟨s, hs, halive, hstreams⟩ | ⟨hnone, hfull, hstreams⟩ | ⟨hnone, hroom, hstreams⟩⟩ :=
    acceptRequest_cases hr
  · -- The plan is alive and skips what lies behind the requester's cursor.
    have hcaptured : (x.accept now q).captured = x.captured := by
      simp [Exchange.accept, hopens, halive]
    have hview : (x.accept now q).transfer t =
        { x.transfer t with remaining := some (s.plan.reposition q.resumeAfter).rest } := by
      rw [transfer, hcaptured, hstreams, lookup_insert_eq, if_pos hid]
      rfl
    refine ⟨htracks.minted, ?_, htracks.requests, by rw [hcaptured]; exact htracks.held⟩
    rw [hview]
    refine htracks.sound.skip (R := s.plan.rest) ?_ fun k hk => ?_
    · change (x.responder.streams.lookup t.streamId).map _ = _
      rw [hid, hs]
      rfl
    · rcases rest_reposition k hk with hlater | hle
      · exact .inl hlater
      · exact .inr (hle.trans (htracks.requests q hq hid.symm))
  · refine htracks.frame rfl le_rfl ?_ rfl rfl (.inr ?_) (fun _ h _ => h) fun _ h => h
    · simp [Exchange.accept, hopens, hnone, Nat.not_lt.mpr hfull]
    · rw [hstreams, hid, hnone]
  · -- A plan is opened behind the requester's cursor.
    have hyes : x.opens now q.streamId = true := by
      rw [hopens, hnone, decide_eq_true hroom]
      rfl
    obtain ⟨hempty, hcursor⟩ := hopen hyes
    have hcaptured : (x.accept now q).captured t.streamId =
        (x.captured t.streamId).filter (fun k => inRange q.taskRanges k) ++
          (new x.ledger q.resumeAfter q.taskRanges).keys := by
      simp only [Exchange.accept, hyes, if_true]
      rw [← hid, Function.update_self]
    have hflight : (x.transfer t).flight = [] := by
      change (ofStream t.streamId x.packages).map chunk = []
      rw [hid, ofStream_eq_nil hempty, map_nil]
    have hplan : ∀ k ∈ (new x.ledger q.resumeAfter q.taskRanges).keys,
        cursorBound t.cursor < (k : WithBot TaskHash) := by
      intro k hk
      have hafter := (mem_new_keys.mp hk).2.1
      rw [hcursor]
      cases hresume : q.resumeAfter with
      | none => exact WithBot.bot_lt_coe k
      | some cursor => exact WithBot.coe_lt_coe.mpr (hafter cursor hresume)
    have hview : (x.accept now q).transfer t = { x.transfer t with
        promised := {k | k ∈ (x.accept now q).captured t.streamId}
        remaining := some {k | k ∈ (new x.ledger q.resumeAfter q.taskRanges).keys} } := by
      rw [transfer, hstreams, lookup_insert_eq, if_pos hid]
      rfl
    refine ⟨htracks.minted, ?_, htracks.requests, ?_⟩
    · rw [hview]
      refine htracks.sound.reopen hflight (fun k hk => ?_) hplan
      rw [hcaptured] at hk
      rcases mem_append.mp hk with hold | hnew
      · obtain ⟨hmem, hrange⟩ := mem_filter.mp hold
        by_cases hle : (k : WithBot TaskHash) ≤ cursorBound t.cursor
        · exact .inr ⟨hmem, hle⟩
        · refine .inl (mem_new_keys.mpr ⟨htracks.held k hmem, ?_, hrange⟩)
          intro cursor hresume
          rw [hcursor, hresume] at hle
          exact WithBot.coe_lt_coe.mp (not_le.mp hle)
      · exact .inl hnew
    · rw [hcaptured]
      intro k hk
      rcases mem_append.mp hk with hold | hnew
      · exact htracks.held k (mem_filter.mp hold).1
      · exact (mem_new_keys.mp hnew).1

/-- A request of the requester reaches the responder. -/
theorem Sound.accept (hx : x.Sound) (hq : q ∈ x.requests) (hopen : x.Harmless (.accept now q)) :
    (x.accept now q).Sound := by
  have hnode : (x.accept now q).responder.nodeId = x.responder.nodeId := (acceptRequest_cases rfl).1
  have hother : ∀ {streamId}, streamId ≠ q.streamId →
      (x.accept now q).captured streamId = x.captured streamId := by
    intro streamId hne
    simp only [Exchange.accept]
    split
    · exact Function.update_of_ne hne _ _
    · rfl
  refine ⟨fun id s hs => ?_, fun p hp => (hx.genuine p hp).mono hnode, fun n hn => ?_,
    fun t ht => ?_⟩
  · exact (hx.serves_acceptRequest rfl (fun _ _ => rfl) hs).mono rfl fun _ h => h
  · have hunused := hx.unused n hn
    have hne := (hunused.requests q hq).symm
    exact ⟨hunused.acceptRequest rfl hne, hunused.packages, hunused.requests,
      (hother hne).trans hunused.captured⟩
  · have ht' : x.tracker.byResponder.lookup x.responder.nodeId = some t := by
      rw [← hnode]
      exact ht
    have htracks := hx.tracked t ht'
    by_cases hid : t.streamId = q.streamId
    · exact htracks.accept hq hid fun h => ⟨(hopen h).1, (hopen h).2 t ht' hid⟩
    · refine htracks.frame rfl le_rfl (hother hid) rfl rfl ?_ (fun _ h _ => h) fun _ h => h
      exact lookup_acceptRequest_of_ne rfl hid

variable [RecordCodec I]

omit [DefaultHasher] in
/-- A package of a sound exchange leaves the responder. -/
theorem Sound.send (hcodec : RecordCodec.RoundTrips I) (hstream : RoundTrips I)
    (hx : x.Sound) (hnode : r.nodeId = x.responder.nodeId)
    {s' : OutboundStream} {built : StreamPackage I}
    (hs : x.responder.streams.lookup streamId = some s)
    (hothers : ∀ id ≠ streamId, r.streams.lookup id = x.responder.streams.lookup id)
    (hself : r.streams.lookup streamId = none ∨ r.streams.lookup streamId = some s')
    (hbuilt : Built x.ledger s.plan built s'.plan) (hrequester : s'.requester = s.requester) :
    Sound { x with
      responder := r
      packages := if (roleDestination s.requester s.requesterIsObserver).peer = x.tracker.nodeId
        then x.packages ++ [⟨⟨x.responder.nodeId, streamId, s.seq, built.cursor, built.payload,
          built.done⟩, x.captured streamId⟩] else x.packages } := by
  have hserves := hx.serves streamId s hs
  obtain ⟨snap, hcarries⟩ := hbuilt.carries hcodec hstream hserves.sorted hserves.held
  set p : SentPackage I := ⟨⟨x.responder.nodeId, streamId, s.seq, built.cursor, built.payload,
    built.done⟩, x.captured streamId⟩ with hp
  have hkeys : p.keys = snap.tasks.keys := by rw [SentPackage.keys, hcarries.decodes]
  have hmem : ∀ {p'}, p' ∈ (if (roleDestination s.requester s.requesterIsObserver).peer =
      x.tracker.nodeId then x.packages ++ [p] else x.packages) → p' ∈ x.packages ∨ p' = p := by
    intro p' hp'
    split at hp'
    · rcases mem_append.mp hp' with h | h
      · exact .inl h
      · exact .inr (mem_singleton.mp h)
    · exact .inl hp'
  refine ⟨fun id s₁ hs₁ => ?_, fun p' hp' => ?_, fun n hn => ?_, fun t ht => ?_⟩
  · by_cases hid : id = streamId
    · subst hid
      rcases hself with h | h
      · rw [h] at hs₁
        cases hs₁
      · rw [h] at hs₁
        cases hs₁
        refine ⟨?_, ?_, fun n hn => hrequester.trans (hserves.mine n hn)⟩
        · rw [hcarries.keys]
          exact hserves.sorted
        · rw [hcarries.keys]
          exact hserves.held
    · exact (hx.serves id s₁ ((hothers id hid).symm.trans hs₁)).mono rfl fun _ h => h
  · rcases hmem hp' with hold | rfl
    · exact (hx.genuine p' hold).mono hnode
    · exact ⟨hnode.symm, ⟨snap, hcarries.decodes⟩, fun h => hkeys.trans (hcarries.bare h)⟩
  · have hunused := hx.unused n hn
    have hne : streamId ≠ mintedId x.tracker.nodeId n := by
      rintro rfl
      rw [hunused.stream] at hs
      cases hs
    refine ⟨(hothers _ hne.symm).trans hunused.stream, fun p' hp' => ?_, hunused.requests,
      hunused.captured⟩
    rcases hmem hp' with hold | rfl
    · exact hunused.packages p' hold
    · exact hne
  · have htracks := hx.tracked t (hnode ▸ ht)
    by_cases hid : t.streamId = streamId
    · -- The tracked stream: the package goes to the requester, and closes what it may.
      obtain ⟨n, _, hminted⟩ := htracks.minted
      have hmine : (roleDestination s.requester s.requesterIsObserver).peer = x.tracker.nodeId := by
        rw [← hserves.mine n (hid.symm.trans hminted), roleDestination]
        split <;> rfl
      have hsent : (x.transfer t).Sound → Transfer.Sound { x.transfer t with
          flight := (x.transfer t).flight ++ [p.chunk], remaining := some s'.plan.rest } := by
        intro hsound
        refine hsound.send (R := s.plan.rest) ?_ ?_ ?_ ?_
        · change (x.responder.streams.lookup t.streamId).map _ = _
          rw [hid, hs]
          rfl
        · intro k hk hle
          change k ∈ p.keys
          rw [hkeys]
          exact hcarries.upTo k hk hle
        · intro k hk
          change k ∈ p.keys ∨ _
          rw [hkeys]
          exact hcarries.split k hk
        · intro S hS
          have hdone : built.done = true ∧ {k | k ∈ x.captured streamId} = S := by
            simpa [chunk, hp] using hS
          refine ⟨?_, fun k hk => ?_⟩
          · rw [← hdone.2, ← hid]
            exact subset_rfl
          · change k ∈ p.keys
            rw [hkeys]
            exact hcarries.last hdone.1 k hk
      have hflight : (ofStream t.streamId (x.packages ++ [p])).map
          chunk = (x.transfer t).flight ++ [p.chunk] := by
        rw [ofStream_append, ofStream_cons_self hid.symm, map_append]
        rfl
      refine ⟨htracks.minted, ?_, htracks.requests, htracks.held⟩
      rcases hself with h | h
      · rw [transfer, hid, h, ← hid, if_pos hmine, hflight]
        exact (hsent htracks.sound).abandon
      · rw [transfer, hid, h, ← hid, if_pos hmine, hflight]
        exact hsent htracks.sound
    · refine htracks.frame rfl le_rfl rfl rfl ?_ (.inl (hothers _ hid))
        (fun _ h _ => h) fun _ h => h
      split
      · rw [ofStream_append, ofStream_cons_of_ne (Ne.symm hid)]
        exact append_nil _
      · rfl

omit [DefaultHasher] in
/-- A wake token is served. -/
theorem Sound.emit (hcodec : RecordCodec.RoundTrips I) (hstream : RoundTrips I)
    (hx : x.Sound) (budget : PackageBudget) (now : ℕ) : (x.emit budget now).Sound := by
  unfold Exchange.emit nextWake
  cases x.responder.wake with
  | nil => exact hx
  | cons streamId wake =>
    dsimp only
    obtain ⟨hnode, ⟨hnone, hkept⟩ | ⟨s, plan, built, hs, hbuilt, hout, hothers, hself⟩⟩ :=
      emitNext_cases budget { x.responder with wake := wake } streamId x.ledger now
    · split
      · rename_i r heq
        rw [heq] at hnode hkept
        exact hx.drop hnode hkept
      · rename_i heq
        rw [heq] at hnone
        cases hnone
    · split
      · rename_i heq
        rw [heq] at hout
        cases hout
      · rename_i r dst frame heq
        rw [heq] at hnode hout hothers hself
        rw [Option.some.injEq, Prod.mk.injEq] at hout
        rw [hout.1, hout.2]
        exact hx.send hcodec hstream hnode hs hothers hself hbuilt rfl

end Responder

/-! ## The network -/

/-- A cursor only moves on. -/
theorem cursorBound_note (t : InboundProgress) (cursor : Option TaskHash) (done : Bool) (now : ℕ) :
    cursorBound (InboundProgress.note t cursor done now).cursor =
      max (cursorBound t.cursor) (cursorBound cursor) := by
  unfold InboundProgress.note
  cases cursor with
  | none => exact (max_eq_left bot_le).symm
  | some c =>
    cases t.cursor with
    | none => exact (max_eq_right bot_le).symm
    | some prev =>
      dsimp only
      split
      · rename_i hlt
        exact (max_eq_right (WithBot.coe_le_coe.mpr hlt.le)).symm
      · rename_i hle
        exact (max_eq_left (WithBot.coe_le_coe.mpr (not_lt.mp hle))).symm

variable {p : SentPackage I} {packages : List (SentPackage I)}

/-- What the oldest package does when it arrives. -/
theorem deliver_eq (hpackages : x.packages = p :: packages) (hp : x.Genuine p) :
    x.deliver now = { x with
      packages := packages
      tracker := x.tracker.notePackage x.responder.nodeId p.frame.streamId p.frame.cursor
        p.frame.done now
      received := Function.update x.received p.frame.streamId
        (x.received p.frame.streamId ++ p.keys) } := by
  obtain ⟨snap, hdecode⟩ := hp.decodes
  have hkeys : p.keys = snap.tasks.keys := by rw [SentPackage.keys, hdecode]
  unfold deliver
  rw [hpackages]
  dsimp only
  rw [hdecode, hkeys, hp.sender]

/-- The tracked stream when one of its packages arrives. -/
theorem Tracks.deliver (htracks : x.Tracks t) (hpackages : x.packages = p :: packages)
    (hid : t.streamId = p.frame.streamId) (tracker : InboundSnapshotStreams)
    (hnode : tracker.nodeId = x.tracker.nodeId) (hmint : tracker.mint = x.tracker.mint) (now : ℕ) :
    Tracks { x with
      packages := packages
      tracker := tracker
      received := Function.update x.received p.frame.streamId
        (x.received p.frame.streamId ++ p.keys) }
      (InboundProgress.note t p.frame.cursor p.frame.done now) ∧
    (p.frame.done = true → ∀ k ∈ p.captured, k ∈ x.received p.frame.streamId ++ p.keys) := by
  have hflight : (x.transfer t).flight = p.chunk :: (ofStream t.streamId packages).map chunk := by
    change (ofStream t.streamId x.packages).map chunk = _
    rw [hpackages, ofStream_cons_self hid.symm, map_cons]
  obtain ⟨hsound, hclosed⟩ := htracks.sound.deliver hflight
  have hset : {k | k ∈ x.received t.streamId ++ p.keys} =
      (x.transfer t).received ∪ p.chunk.carried := by
    ext k
    exact mem_append
  have hcursor := cursorBound_note t p.frame.cursor p.frame.done now
  refine ⟨⟨?_, ?_, fun q hq hqid => ?_, htracks.held⟩, fun hdone k hk => ?_⟩
  · obtain ⟨n, hn, hminted⟩ := htracks.minted
    exact ⟨n, hmint ▸ hn, hnode ▸ hminted⟩
  · have hreceived : Function.update x.received p.frame.streamId
        (x.received p.frame.streamId ++ p.keys) t.streamId = x.received t.streamId ++ p.keys := by
      rw [hid, Function.update_self]
    rw [transfer, hcursor]
    change Transfer.Sound ⟨_, {k | k ∈ Function.update x.received _ _ t.streamId}, _, _, _⟩
    rw [hreceived, hset]
    exact hsound
  · rw [hcursor]
    exact (htracks.requests q hq hqid).trans (le_max_left _ _)
  · have hall := hclosed {k | k ∈ p.captured} (by rw [chunk, if_pos hdone])
    have hmem := hall hk
    rw [← hset] at hmem
    rw [← hid]
    exact hmem

section

variable (hx : x.Sound)
include hx

/-- **The next chunk arrives**, and with it everything it closes. -/
theorem Sound.deliver (now : ℕ) : (x.deliver now).Sound := by
  cases hpackages : x.packages with
  | nil =>
    have hsame : x.deliver now = x := by rw [Exchange.deliver, hpackages]
    rwa [hsame]
  | cons p packages =>
    have hold : ∀ {p'}, p' ∈ packages → p' ∈ x.packages := fun h =>
      hpackages ▸ mem_cons_of_mem p h
    rw [deliver_eq hpackages (hx.genuine p (hpackages ▸ mem_cons_self))]
    have hnote := notePackage_cases x.tracker x.responder.nodeId
      p.frame.streamId p.frame.cursor p.frame.done now
    generalize x.tracker.notePackage _ _ _ _ _ = tracker at hnote ⊢
    have htracker : tracker.nodeId = x.tracker.nodeId ∧ tracker.mint = x.tracker.mint := by
      rcases hnote with ⟨_, _, _, heq⟩ | ⟨_, heq⟩ <;> rw [heq] <;> exact ⟨rfl, rfl⟩
    refine hx.frame rfl htracker.1 htracker.2.ge (fun _ _ h => h) (fun _ h => hold h) rfl rfl
      (fun _ h => h) fun t ht => ?_
    rcases hnote with ⟨t₀, ht₀, hid, heq⟩ | ⟨hne, heq⟩
    · rw [heq] at ht
      obtain rfl : _ = t := Option.some.inj
        ((AList.lookup_insert x.tracker.byResponder).symm.trans ht)
      exact ((hx.tracked t₀ ht₀).deliver hpackages hid _ htracker.1 htracker.2 now).1
    · rw [heq] at ht
      have hid := hne t ht
      refine (hx.tracked t ht).frame htracker.1 htracker.2.ge rfl ?_ ?_ (.inl rfl)
        (fun _ h _ => h) fun _ h => h
      · exact Function.update_of_ne hid _ _
      · rw [hpackages, ofStream_cons_of_ne (Ne.symm hid)]

/-- A package is lost that carries nothing, or that nothing follows. -/
theorem Sound.lose (i : ℕ) (hlose : x.Harmless (.lose i)) : (x.lose i).Sound := by
  refine hx.frame rfl rfl le_rfl (fun _ _ h => h) (fun _ h => mem_of_mem_eraseIdx h) rfl rfl
    (fun _ h => h) fun t ht => ?_
  have htracks := hx.tracked t ht
  cases hp : x.packages[i]? with
  | none =>
    have hsame : (x.lose i).packages = x.packages :=
      eraseIdx_of_length_le (getElem?_eq_none_iff.mp hp)
    exact htracks.frame rfl le_rfl rfl rfl (by rw [hsame]) (.inl rfl) (fun _ h _ => h) fun _ h => h
  | some p =>
    obtain ⟨hi, hget⟩ := List.getElem?_eq_some_iff.mp hp
    have hsplit : x.packages = x.packages.take i ++ p :: x.packages.drop (i + 1) := by
      rw [← hget, getElem_cons_drop, take_append_drop]
    have herase : (x.lose i).packages = x.packages.take i ++ x.packages.drop (i + 1) :=
      eraseIdx_eq_take_drop_succ x.packages i
    by_cases hid : p.frame.streamId = t.streamId
    · have hflight : (x.transfer t).flight = (ofStream t.streamId (x.packages.take i)).map chunk ++
            p.chunk :: (ofStream t.streamId (x.packages.drop (i + 1))).map
              chunk := by
        change (ofStream t.streamId x.packages).map chunk = _
        conv_lhs => rw [hsplit]
        rw [ofStream_append, ofStream_cons_self hid, map_append, map_cons]
      refine ⟨htracks.minted, ?_, htracks.requests, htracks.held⟩
      have hview : (x.lose i).transfer t = { x.transfer t with
          flight := (ofStream t.streamId (x.packages.take i)).map chunk ++
            (ofStream t.streamId (x.packages.drop (i + 1))).map chunk } := by
        rw [transfer, herase, ofStream_append, map_append]
        rfl
      rw [hview]
      rcases hlose p hp with hnone | ⟨hlast, hgone⟩
      · refine htracks.sound.loseBare hflight ?_
        have hbare := (hx.genuine p (mem_of_getElem? hp)).bare hnone
        rw [chunk, hbare]
        ext k
        simp
      · rw [hid] at hlast hgone
        rw [ofStream_eq_nil hlast] at hflight ⊢
        rw [map_nil, append_nil]
        refine htracks.sound.loseLast ?_ hflight
        change (x.responder.streams.lookup t.streamId).map _ = none
        rw [hgone]
        rfl
    · refine htracks.frame rfl le_rfl rfl rfl ?_ (.inl rfl) (fun _ h _ => h) fun _ h => h
      rw [herase]
      conv_rhs => rw [hsplit]
      rw [ofStream_append, ofStream_append, ofStream_cons_of_ne hid]

/-- The tracker moves on with another responder. -/
theorem Sound.elsewhere {tracker : InboundSnapshotStreams}
    (hnode : tracker.nodeId = x.tracker.nodeId) (hmint : x.tracker.mint ≤ tracker.mint)
    (hsame : tracker.byResponder.lookup x.responder.nodeId =
      x.tracker.byResponder.lookup x.responder.nodeId) : Sound { x with tracker := tracker } := by
  refine hx.frame rfl hnode hmint (fun _ _ h => h) (fun _ h => h) rfl rfl (fun _ h => h)
    fun t ht => ?_
  exact (hx.tracked t (hsame.symm.trans ht)).frame hnode hmint rfl rfl rfl (.inl rfl)
    (fun _ h _ => h) fun _ h => h

/-- The responder's ledger moves on. -/
theorem Sound.move [DefaultHasher] [RecordCodec I]
    (hmove : LedgerMove x.ledger ledger) : Sound { x with ledger := ledger } := by
  refine hx.frame rfl rfl le_rfl (fun _ _ h => h) (fun _ h => h) rfl rfl
    (fun _ h => hmove.containsTask h) fun t ht => ?_
  exact (hx.tracked t ht).frame rfl le_rfl rfl rfl rfl (.inl rfl) (fun _ h _ => h)
    fun _ h => hmove.containsTask h

end

/-! ## Whole runs -/

section Runs

variable [DefaultHasher] [RecordCodec I]

/-- A harmless step keeps the invariant. -/
theorem Sound.step (hcodec : RecordCodec.RoundTrips I) (hstream : RoundTrips I)
    (budget : PackageBudget) (hx : x.Sound) {e : Event I} (hallowed : x.Allowed e)
    (hharmless : x.Harmless e) : (x.step budget e).Sound := by
  cases e with
  | request now taskRanges => exact hx.request now taskRanges
  | accept => exact hx.accept hallowed hharmless
  | acceptOther now requester isObserver => exact hx.acceptOther now requester isObserver hallowed
  | emit now => exact hx.emit hcodec hstream budget now
  | abort streamId => exact hx.abort streamId
  | deliver now => exact hx.deliver now
  | lose i => exact hx.lose i hharmless
  | requestElsewhere responder now =>
    have hne : x.responder.nodeId ≠ responder := Ne.symm hallowed
    change Sound { x with tracker := (x.tracker.requestParams responder now).1 }
    rcases requestParams_cases with ⟨p, _, hparams⟩ | hparams
    · rw [hparams]
      exact hx
    · rw [hparams]
      exact hx.elsewhere rfl (Nat.le_succ _) (AList.lookup_insert_ne hne)
  | noteElsewhere responder streamId cursor done now =>
    have hne : x.responder.nodeId ≠ responder := Ne.symm hallowed
    change Sound { x with tracker := x.tracker.notePackage responder streamId cursor done now }
    rcases notePackage_cases x.tracker responder streamId cursor done now with
      ⟨p, _, _, heq⟩ | ⟨_, heq⟩
    · rw [heq]
      exact hx.elsewhere rfl le_rfl (AList.lookup_insert_ne hne)
    · rw [heq]
      exact hx
  | move => exact hx.move hallowed

/-- Along a run whose calls take no reserved id the store stays sound. -/
theorem Reached.sound (hcodec : RecordCodec.RoundTrips I) (hstream : RoundTrips I)
    {budget : PackageBudget} (hx : Reached budget Harmless x) : x.Sound := by
  induction hx with
  | start =>
    exact
      { serves := fun _ _ h => by cases h
        genuine := fun _ h => by cases h
        unused := fun _ _ => ⟨rfl, fun _ h => (by cases h), fun _ h => (by cases h), rfl⟩
        tracked := fun _ h => by cases h }
  | step e _ hallowed hharmless ih => exact ih.step hcodec hstream budget hallowed hharmless

/-- **A finished stream is complete.** In every run whose steps are harmless, when the requester
records a package marked done, every key that the plans of its stream had captured, and that
their requests still asked for, has been carried by a package of the stream that it received. -/
theorem done_stream_is_complete (hcodec : RecordCodec.RoundTrips I)
    (hstream : RoundTrips I) {budget : PackageBudget} (hx : Reached budget Harmless x)
    {p : SentPackage I} {packages : List (SentPackage I)} (hpackages : x.packages = p :: packages)
    {t : InboundProgress} (ht : x.tracker.byResponder.lookup x.responder.nodeId = some t)
    (hid : t.streamId = p.frame.streamId) (hdone : p.frame.done = true) (now : ℕ) :
    ∀ k ∈ p.captured, k ∈ (x.deliver now).received p.frame.streamId := by
  have hsound := hx.sound hcodec hstream
  intro k hk
  rw [deliver_eq hpackages (hsound.genuine p (hpackages ▸ mem_cons_self))]
  dsimp only
  rw [Function.update_self]
  exact ((hsound.tracked t ht).deliver hpackages hid x.tracker rfl rfl now).2 hdone k hk

end Runs

end Exchange

namespace Sample

/-- A wire that carries snapshots as they are. -/
scoped instance plainStream {I : Type} : StreamCodec I where
  Payload := ClusterStateSnapshot I
  encodeStreamPayload := .ok
  decodeStreamPayload := .ok
  entryLen := fun _ => .ok 0

/-- The sample codec reads back what it wrote. -/
theorem plainStream_roundTrips {I : Type} : RoundTrips I := by
  intro snap payload h
  cases h
  rfl

/-- A node that has seen its one task complete, so that a tally is captured with every plan. -/
def finishedTask : ClusterState String := oneTask.applyAll [.taskCompleted "a" none 0]

/-- The requester has asked, and the head, the batch and the tail are under way. -/
def pulling : Exchange String :=
  [.request 0 [], .accept 0 ⟨"n/0", none, []⟩, .emit 0, .emit 0, .emit 0].foldl
    (step packageBudget) (.start finishedTask "r" "n" false)

/-- The sample exchange is reached. -/
theorem pulling_reached {cond : Exchange String → Event String → Prop}
    (hrequest : ∀ x now taskRanges, cond x (.request now taskRanges))
    (haccept : ∀ x, x.packages = [] → x.tracker.byResponder.lookup x.responder.nodeId =
      some ⟨"n/0", none, false, 0, 0⟩ → cond x (.accept 0 ⟨"n/0", none, []⟩))
    (hemit : ∀ x now, cond x (.emit now)) : Reached packageBudget cond pulling := by
  have hasked : Reached packageBudget cond
      ((start finishedTask "r" "n" false).step packageBudget (.request 0 [])) :=
    .step (.request 0 []) (.start finishedTask "r" "n" false) trivial (hrequest _ _ _)
  have hopened := Reached.step (.accept 0 ⟨"n/0", none, []⟩) hasked mem_cons_self
    (haccept _ rfl rfl)
  exact .step (.emit 0) (.step (.emit 0) (.step (.emit 0) hopened trivial (hemit _ _)) trivial
    (hemit _ _)) trivial (hemit _ _)

/-- Nothing is lost, and the task is there when the tail says that the stream is done. -/
theorem pulled_stream_is_complete : "a" ∈ (([.deliver 0, .deliver 0].foldl (step packageBudget)
      pulling).deliver 0).received "n/0" := by
  have hreached : Reached packageBudget Harmless pulling := by
    refine pulling_reached (fun _ _ _ => trivial) (fun x hnone ht _ => ⟨?_, ?_⟩) fun _ _ => trivial
    · rw [hnone]
      intro p hp
      cases hp
    · intro t ht' _
      rw [ht] at ht'
      cases ht'
      rfl
  exact done_stream_is_complete skippingCodec_roundTrips plainStream_roundTrips
    (.step (.deliver 0) (.step (.deliver 0) hreached trivial trivial) trivial trivial) rfl rfl rfl
    rfl 0 "a" (mem_singleton_self "a")

/-- The batch is lost and the tail is not: the requester takes the stream for done, and a
captured task has never arrived. -/
theorem lost_batch_goes_unnoticed :
    ∃ x : Exchange String, Reached packageBudget (fun _ _ => True) x ∧
      (x.tracker.byResponder.lookup x.responder.nodeId).map (fun t => (t.streamId, t.done)) =
        some ("n/0", true) ∧
      "a" ∈ x.captured "n/0" ∧ "a" ∉ x.received "n/0" := by
  have hreached : Reached packageBudget (fun _ _ => True) pulling :=
    pulling_reached (fun _ _ _ => trivial) (fun _ _ _ => trivial) fun _ _ => trivial
  refine ⟨_, .step (.deliver 0) (.step (.deliver 0) (.step (.lose 1) hreached trivial trivial)
    trivial trivial) trivial trivial, ?_, ?_, ?_⟩
  · rfl
  · decide
  · decide

end Sample

end DynRunner
