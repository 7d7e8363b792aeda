import AtcHdlc.Enquiry
import AtcHdlc.GoBackN

/-! Reliable transfer within a session. Two stations with open sessions go through the steps of two peers
with open sessions, whatever is lost and however the frames are grouped into chunks; so what one of them
gives to its application is a prefix of what the other one has accepted, and the sender has no payload
acknowledged that was not delivered. -/

namespace AtcHdlc

open DataLink

section Given

variable {st : Station}

namespace LinkView

theorem got_acknowledge (v : LinkView) (pf : Bool) : (v.acknowledge st pf).got = v.got := by
  unfold acknowledge
  split_ifs <;> rfl

theorem got_refuse (v : LinkView) (pf : Bool) : (v.refuse st pf).got = v.got := by
  unfold refuse
  split_ifs <;> rfl

theorem got_busy (v : LinkView) (kind : Nat) : (v.busy st kind).got = v.got := by
  unfold busy
  split_ifs <;> rfl

theorem got_poll (v : LinkView) (polled : Bool) : (v.poll st polled).got = v.got := by
  unfold poll
  split_ifs <;> rfl

/-- A frame that is no U-frame adds to the session what it gives to the application. -/
theorem got_next {s : Ctx} {f : Received} (hu : isUframe f.ctrl = false) :
    ((linkView s).next st s f).got = (linkView s).got ++ if Hands s f then [f.info.getD []] else [] := by
  have hnot : ¬isUframe f.ctrl = true := ne_true_of_eq_false hu
  by_cases h : Hands s f
  · rw [if_pos h]
    unfold Hands at h
    unfold next
    cases hstate : s.currentState with
    | connected =>
        simp only [hstate, if_neg hnot] at h ⊢
        obtain ⟨hi, hvalid, hseq⟩ := h
        simp only [hi, hvalid, hseq, not_true, if_false, if_true]
        exact got_acknowledge _ _
    | disconnected =>
        simp only [hstate] at h
        exact absurd h.1 hnot
    | connecting | disconnecting | frmrError =>
        simp only [hstate] at h
  · rw [if_neg h, List.append_nil]
    unfold Hands at h
    unfold next
    cases hstate : s.currentState with
    | connected =>
        simp only [hstate, if_neg hnot] at h ⊢
        have hquiet (polled : Bool) :
            (((linkView s).busy st (ctrlS f.ctrl)).poll st polled).got = (linkView s).got :=
          (got_poll _ _).trans (got_busy _ _)
        split_ifs with hi hvalid hseq hvalid
        · exact absurd ⟨hi, hvalid, hseq⟩ h
        · exact got_refuse _ _
        · rfl
        · exact hquiet _
        · exact hquiet _
    | disconnected | connecting | frmrError =>
        simp only [hu]
        rfl
    | disconnecting =>
        simp only [hu]
        cases ctrlPf f.ctrl <;> rfl

end LinkView

/-- The application has been given what the session has received, after some payloads of before. -/
def Given (before : List (List UInt8)) (s : Ctx) : Prop := payloads s.trace = before ++ received s.trace

theorem retransmitIfPending_received (s : Ctx) :
    received (retransmitIfPending st s).trace = received s.trace := by
  have hloop (w : TxWindow) (endVs fuel slotIdx : Nat) (s : Ctx) :
      received (retransmitLoop st w endVs fuel slotIdx s).trace = received s.trace := by
    induction fuel generalizing slotIdx s with
    | zero => rfl
    | succ fuel ih =>
        simp only [retransmitLoop, frameSend_octets]
        split_ifs
        · rfl
        · have hlogged : received (s.log (.slotRead slotIdx)).trace = received s.trace :=
            received_append s.trace (by simp [Plain])
          rw [ih, ← hlogged]
          exact received_obs _ _ _ _
  unfold retransmitIfPending
  split_ifs
  · cases st.txWindow with
    | none => exact @received_append s.trace [.nullWindow] (by simp [Plain])
    | some w =>
        simp only [retransmitOutstanding]
        exact (congrArg LinkView.got (linkView_t1Start _)).trans (hloop w _ 8 _ _)
  · rfl

section Numbered

variable (hp : st.platform.Passive) (hdata : st.platform.onData.isSome = true) {before : List (List UInt8)}
include hp hdata

theorem Given.dispatch {s : Ctx} (h : Given before s) {f : Received} (hu : isUframe f.ctrl = false) :
    Given before (f.dispatch st s) := by
  have hgot : received (f.dispatch st s).trace =
      received s.trace ++ if Hands s f then [f.info.getD []] else [] :=
    (congrArg LinkView.got (dispatchFrame_linkView hp s f)).trans (LinkView.got_next hu)
  have hhanded : handed st s f = if Hands s f then [f.info.getD []] else [] :=
    if_congr (and_iff_right hdata) rfl rfl
  unfold Given at h ⊢
  rw [payloads_dispatch hp, h, hgot, hhanded, List.append_assoc]

theorem Given.octets {s : Ctx} (h : Given before s) (hindex : s.rxIndex = 0) {f : Frame}
    (hu : isUframe f.ctrl = false) :
    Given before (rxBytes st s (f.octets st.crc)) ∧ (rxBytes st s (f.octets st.crc)).rxIndex = 0 := by
  obtain ⟨t, hread⟩ := @rxBytes_octets st s hindex f
  rw [hread]
  split_ifs
  · exact ⟨Given.dispatch hp hdata (s := s.withParser t) h (f := f.arriving) hu, rfl⟩
  · exact ⟨h, rfl⟩

/-- Some numbered frames arrive with one call. -/
theorem Given.dataIn {sender : Station} (hcrc : sender.crc = st.crc) {my : UInt8} {flights : List Flight}
    {ms : List (Msg (List UInt8))} (hms : List.Forall₂ (Carries sender my) flights ms)
    (hnr : ∀ m ∈ ms, m.nr?.isSome = true) {s : Ctx} (h : Given before s) (hindex : s.rxIndex = 0)
    (hinv : ∀ w, st.txWindow = some w → WindowInv w s) :
    Given before (dataIn st s (flights.flatMap fun f => f.wire.octets)) := by
  have hread : Given before (rxBytes st s (flights.flatMap fun f => f.wire.octets)) := by
    clear hinv
    induction hms generalizing s with
    | nil => exact h
    | @cons flight m flights ms hm _ ih =>
        obtain ⟨f, hwire, hmeans⟩ := hm
        have hoctets : flight.wire.octets = f.octets st.crc := by
          rw [hwire, hcrc]
          rfl
        obtain ⟨hfirst, hindex'⟩ := h.octets hp hdata hindex (hmeans.numbered (hnr m List.mem_cons_self))
        have hrest := ih (fun m hm => hnr m (List.mem_cons_of_mem _ hm)) hfirst hindex'
        rw [List.flatMap_cons, hoctets, rxBytes, List.foldl_append]
        exact hrest
  have hinv' : ∀ w, st.txWindow = some w → WindowInv w (rxBytes st s (flights.flatMap fun f => f.wire.octets)) :=
    fun w hw => (hinv w hw).rxBytes hp _
  unfold Given at hread ⊢
  rw [AtcHdlc.dataIn, retransmitIfPending_payloads hinv', retransmitIfPending_received]
  exact hread

end Numbered

end Given

section Calls

variable {st : Station} {peer : UInt8} {bound : Nat} {s : Ctx} {x : Peer (List UInt8)} {R : Rules}

/-- An accepted payload joins the session. -/
theorem session_acceptI {w : TxWindow} (s : Ctx) {data : Payload} (hdata : data.NonNull) :
    session (acceptI st w s data).trace =
      ⟨(session s.trace).sent ++ [data.read], (session s.trace).acked⟩ := by
  rw [acceptI_eq s hdata]
  extract_lets next filled' stored sent stopped
  have hquiet {t u : Ctx} (h : Quiet t u) : session u.trace = session t.trace := by
    obtain ⟨os, hos, htrace⟩ := h.trace
    rw [htrace, session_neutral _ hos]
  have hsent : session sent.trace = session stored.trace := hquiet (.put st stored _)
  have hstopped : session stopped.trace = session stored.trace :=
    (hquiet (.t2Stop st { sent with vs := (s.vs + 1) % mod8 })).trans hsent
  have hstored : session stored.trace = ⟨(session s.trace).sent ++ [data.read], (session s.trace).acked⟩ :=
    session_snoc s.trace _
  split_ifs
  · rw [hquiet (.t1Start st stopped), hstopped, hstored]
  · rw [hstopped, hstored]

/-- An accepted payload. -/
theorem Reflects.acceptI (h : Reflects st peer bound s x) {w : TxWindow} (hw : st.txWindow = some w)
    {data : Payload} (hdata : data.NonNull) (hlen : data.len ≤ w.slotCapacity) (hbound : data.len ≤ bound)
    (hroom : outstanding s < w.slotCount) :
    Reflects st peer bound (acceptI st w s data)
      ((x.take (heardInfo data.read)).say (.data x.sent.length (heardInfo data.read) x.got.length)) := by
  have hview := @linkView_acceptI st w s data hdata
  have hsession := @session_acceptI st w s data hdata
  have hinv := h.inv
  rw [windowOf_eq hw] at hinv
  refine ⟨?_, ?_, ?_, ?_, ?_, h.window, ?_, ?_, ?_, ?_, ?_⟩
  · have hstate : (AtcHdlc.acceptI st w s data).currentState = s.currentState :=
      congrArg LinkView.currentState hview
    rw [hstate]
    exact h.link
  · exact (congrArg LinkView.myAddress hview).trans h.myAddress
  · exact (congrArg LinkView.peerAddress hview).trans h.peerAddress
  · exact fun hnone => absurd (hw.symm.trans hnone) (by simp)
  · rw [windowOf_eq hw]
    exact hinv.acceptI hdata hlen hroom
  · rw [hsession, List.map_append, ← h.sent]
    rfl
  · rw [hsession]
    exact h.acked
  · exact h.got.trans (congrArg LinkView.got hview).symm
  · exact (congrArg LinkView.vr hview).trans h.vr
  · rw [hsession]
    intro payload hmem
    rcases List.mem_append.mp hmem with hmem | hmem
    · exact h.bounded payload hmem
    · rw [List.mem_singleton.mp hmem, hdata.length_read]
      exact hbound

end Calls

section Says

variable {peer : UInt8} {bound : Nat} {e : Endpoint} {x : Peer (List UInt8)} {R : Rules}

/-- A call is nothing but talk of the peer. -/
def Says (peer : UInt8) (bound : Nat) (R : Rules) (x : Peer (List UInt8)) (e' : Endpoint) : Prop :=
  ∃ x', Stands peer bound e' x' ∧ x'.got = x.got ∧ ∀ y, Relation.ReflTransGen (Chat R) ⟨x, y⟩ ⟨x', y⟩

theorem Stands.says_nothing (h : Stands peer bound e x) {t : Ctx}
    (hl : Leaves e.station e.ctx t e.ctx.currentState []) : Says peer bound R x (e.become t) := by
  refine ⟨x, h.become (h.reflects.leaves hl ?_) (hl.index.trans h.index) (hl.pending.trans h.pending) ?_,
    rfl, fun _ => .refl⟩
  · rw [← h.reflects.link]
  · exact .silent rfl rfl (hl.wires.trans (List.append_nil _)) rfl

/-- A supervisory frame with the current V(R). -/
theorem Stands.says_ack (h : Stands peer bound e x) (hup : x.link = .up) {t : Ctx} {address : UInt8} {kind : Nat}
    {poll : Bool} (haddr : address = e.ctx.myAddress ∨ address = e.ctx.peerAddress) (hpoll : poll = true → R.timed)
    (hl : Leaves e.station e.ctx t e.ctx.currentState [⟨address, sCtrl kind e.ctx.vr poll, []⟩]) :
    Says peer bound R x (e.become t) := by
  refine ⟨x.say (.ack x.got.length poll), h.become (h.reflects.leaves hl ?_) (hl.index.trans h.index)
    (hl.pending.trans h.pending) ?_, rfl, fun y => .single (Or.inl (.ack poll hup fun hp => Or.inl (hpoll hp)))⟩
  · rw [← h.reflects.link]
    rfl
  · refine .one rfl rfl _ _ hl.wires rfl (.ack kind _ poll ?_ ?_ rfl) rfl
    · rw [← h.reflects.myAddress, ← h.reflects.peerAddress]
      exact haddr
    · rw [h.reflects.vr]
      exact sCtrl_mod kind _ poll

theorem Stands.says_transmitI (hp : e.station.platform.Passive) (h : Stands peer bound e x) {data : Payload}
    (hdata : data.NonNull) (hbound : data.len ≤ e.station.config.maxInfoSize → data.len ≤ bound) :
    Says peer bound R x (e.call (.transmitI data)) := by
  have hindex : ((Call.transmitI data).run e.station e.ctx).rxIndex = e.ctx.rxIndex :=
    Call.rxIndex_eq hp e.ctx hdata (by simp)
  rcases transmitI_cases e.ctx data with hsame | ⟨w, hw, hstate, -, hlen, hroom, haccepted⟩
  · have hcall : e.call (.transmitI data) = e.become e.ctx := congrArg e.become hsame
    rw [hcall]
    exact h.says_nothing (.fields e.ctx e.ctx (.of_trace rfl rfl rfl rfl rfl rfl rfl) rfl rfl rfl)
  · have hcall : e.call (.transmitI data) = e.become (acceptI e.station w e.ctx data) :=
      congrArg e.become haccepted
    have hinv := h.reflects.inv
    rw [windowOf_eq hw] at hinv
    have hslot : data.len ≤ w.slotCapacity := hlen.trans (e.station.slotCapacity_min w hw)
    have hup : x.link = .up := h.reflects.link.trans (by rw [hstate, linkOf])
    have hline : onLine (acceptI e.station w e.ctx data).trace = onLine (e.ctx.put e.station
        ⟨e.ctx.peerAddress, iCtrl e.ctx.vs e.ctx.vr false, data.read⟩).trace :=
      (congrArg LinkView.line (linkView_acceptI e.ctx hdata)).trans
        (congrArg LinkView.line (linkView_put e.ctx _)).symm
    rw [hcall]
    refine ⟨_, h.become (h.reflects.acceptI hw hdata hslot (hbound hlen) hroom) ?_ ?_ ?_, rfl,
      fun y => .single (Or.inl ?_)⟩
    · exact (congrArg Ctx.rxIndex haccepted).symm.trans (hindex.trans h.index)
    · rw [acceptI_pending e.ctx hdata]
      exact h.pending
    · refine .one rfl rfl ⟨e.ctx.peerAddress, iCtrl e.ctx.vs e.ctx.vr false, data.read⟩ _ ?_ rfl ?_ rfl
      · rw [← wires_onLine, hline, wires_onLine]
        exact wires_obs _ _ _ _
      · refine .data x.sent.length x.got.length h.reflects.peerAddress ?_
        rw [h.reflects.vs, h.reflects.vr]
        exact iCtrl_mod _ _ _
    · refine .push _ hup ?_
      have hout := outstanding_eq hinv.va hinv.vs hinv.acked_le hinv.lt_mod8
      have hwindow := h.reflects.window
      rw [windowOf_eq hw] at hwindow
      rw [h.reflects.sent_length, h.reflects.acked, hwindow]
      omega

theorem Stands.says_setLocalBusy (h : Stands peer bound e x) (busy : Bool) :
    Says peer bound R x (e.call (.setLocalBusy busy)) := by
  have hflag (b : Bool) : Leaves e.station e.ctx { e.ctx with localBusy := b } e.ctx.currentState [] :=
    .fields e.ctx _ (.of_trace rfl rfl rfl rfl rfl rfl rfl) rfl rfl rfl
  have hsame : Leaves e.station e.ctx e.ctx e.ctx.currentState [] :=
    .fields e.ctx _ (.of_trace rfl rfl rfl rfl rfl rfl rfl) rfl rfl rfl
  have hcall : e.call (.setLocalBusy busy) = e.become (setLocalBusy e.station e.ctx busy).2 := rfl
  rw [hcall]
  unfold setLocalBusy
  simp only [sendRr, sendS_eq]
  split_ifs with hstate hset hclear
  · exact h.says_nothing hsame
  · exact h.says_nothing (hflag true)
  · have hup : x.link = .up := h.reflects.link.trans (by rw [not_not.mp hstate, linkOf])
    exact h.says_ack hup (Or.inr rfl) (fun hp => absurd hp Bool.false_ne_true) ((hflag false).trans (.put _ _))
  · exact h.says_nothing hsame

/-- The expiry of T2 says an RR or, from a busy station, an RNR with the current V(R). -/
theorem t2Expired_leaves {st : Station} (s : Ctx) :
    ∃ address kind, (address = s.myAddress ∨ address = s.peerAddress) ∧ (kind = sRr ∨ kind = sRnr) ∧
      Leaves st s (t2Expired st s) s.currentState [⟨address, sCtrl kind s.vr false, []⟩] := by
  have hflag : Leaves st s { s with t2Active := false } s.currentState [] :=
    .fields s _ (.of_trace rfl rfl rfl rfl rfl rfl rfl) rfl rfl rfl
  unfold t2Expired
  simp only [sendRr, sendRnr, sendS_eq]
  split_ifs
  · exact ⟨s.myAddress, sRnr, Or.inl rfl, Or.inr rfl, hflag.trans (.put _ _)⟩
  · exact ⟨s.peerAddress, sRr, Or.inr rfl, Or.inl rfl, hflag.trans (.put _ _)⟩

theorem Stands.says_t2Expired (h : Stands peer bound e x) (hup : x.link = .up) :
    Says peer bound R x (e.call .t2Expired) := by
  obtain ⟨address, kind, haddr, -, hl⟩ := @t2Expired_leaves e.station e.ctx
  exact h.says_ack hup haddr (fun hp => absurd hp Bool.false_ne_true) hl

theorem counted_leaves {st : Station} (s : Ctx) : Leaves st s (counted s) s.currentState [] :=
  .fields s _ (.of_trace rfl rfl rfl rfl rfl rfl rfl) rfl rfl rfl

/-- An expiry of T1 that repeats a frame. -/
theorem Repeats.leaves {st : Station} {f : Frame} {s : Ctx} (h : Repeats st f s) :
    Leaves st s (t1Expired st s) s.currentState [f] := by
  rw [Repeats] at h
  rw [h]
  exact ((counted_leaves s).trans (.put _ f)).trans (.t1Start _)

/-- T1 expires, and the retries are not exhausted. -/
theorem Stands.says_t1Expired (h : Stands peer bound e x) (hup : x.link = .up)
    (hkept : ¬Exhausted e.station (counted e.ctx)) (htimed : R.timed) :
    Says peer bound R x (e.call .t1Expired) := by
  have hstate : e.ctx.currentState = .connected := linkOf_up.mp (h.reflects.link.symm.trans hup)
  have hcall : e.call .t1Expired = e.become (t1Expired e.station e.ctx) := rfl
  rw [hcall]
  by_cases hopen : e.ctx.va = e.ctx.vs
  · have hidle : t1Expired e.station e.ctx = counted e.ctx := by
      refine t1Expired_idle ?_ hkept
      simp [Awaiting, hstate, hopen]
    rw [hidle]
    exact h.says_nothing (counted_leaves e.ctx)
  · have hrepeats : Repeats e.station (enquiry e.ctx) e.ctx :=
      t1Expired_repeats (Or.inr (Or.inr (Or.inr ⟨hstate, hopen⟩))) hkept
    have hsaid := hrepeats.leaves
    unfold enquiry at hsaid
    simp only [hstate] at hsaid
    rw [← hstate] at hsaid
    split_ifs at hsaid
    · exact h.says_ack hup (Or.inl rfl) (fun _ => htimed) hsaid
    · exact h.says_ack hup (Or.inr rfl) (fun _ => htimed) hsaid

/-- Numbered frames leave the numbers of commands alone. -/
theorem Stands.hear_all (h : Stands peer bound e x) {st : Station} {p : UInt8} {flights : List Flight}
    {ms : List (Msg (List UInt8))} (hms : List.Forall₂ (Carries st p) flights ms)
    (hnr : ∀ m ∈ ms, m.nr?.isSome = true) : Stands peer bound (flights.foldl Endpoint.hear e) x := by
  induction hms generalizing e with
  | nil => exact h
  | @cons flight m flights ms hm _ ih =>
      have hfirst : m.nr?.isSome = true := hnr m List.mem_cons_self
      have hheard := h.hear hm
      have hlisten : listen x m = x := by
        cases m with
        | data | ack => rfl
        | _ => exact absurd hfirst (by simp [Msg.nr?])
      rw [hlisten] at hheard
      exact ih hheard fun m hm => hnr m (List.mem_cons_of_mem _ hm)

/-- Some frames of the session arrive with one call. -/
theorem Stands.receive (hp : e.station.platform.Passive) (hR : R.modulus = mod8) (h : Stands peer bound e x)
    (hkept : Kept (windowOf e.station) e.ctx) {sender : Station}
    (hcrc : sender.crc = e.station.crc) (hpeer : sender.config.address = peer) {flights : List Flight}
    {ms : List (Msg (List UInt8))} (hms : List.Forall₂ (Carries sender e.station.config.address) flights ms)
    {y : Peer (List UInt8)} {rest : List (Msg (List UInt8))} (hout : y.out = ms ++ rest)
    (hinv : Inv R ⟨x, y⟩) (htalking : Talking ⟨x, y⟩) :
    ∃ x', Stands peer bound (e.receive flights) x' ∧
      Relation.ReflTransGen (Chat R) ⟨x, y⟩ ⟨x', { y with out := rest }⟩ := by
  have hnr : ∀ m ∈ ms, m.nr?.isSome = true := fun m hm =>
    htalking.farOut m (by rw [hout]; exact List.mem_append_left _ hm)
  have hunarmed : ArmedIn e.station e.ctx x := fun hpending => by
    rw [h.pending] at hpending
    exact absurd hpending (by decide)
  obtain ⟨x₁, hx₁, harmed, hindex, hspoken, hchats⟩ :=
    h.reflects.arrive_all hp hR hcrc hpeer hms hnr hunarmed h.index
  have hchats := hchats y rest hout
  have hup : x₁.link = .up := (htalking.chats hinv hchats).2.near
  obtain ⟨x', hx', hpending, hindex', hspoken', htalks⟩ := hx₁.retransmit harmed (fun _ => hup)
    fun _ => hkept.rxBytes hp _
  refine ⟨x', ?_, hchats.trans (talk_chat (htalks _))⟩
  have hheard := h.hear_all hms hnr
  obtain ⟨heard, hhear⟩ := foldl_hear e flights
  rw [Endpoint.receive]
  rw [hhear] at hheard ⊢
  exact hheard.become hx' (hindex'.trans hindex) hpending (hspoken.trans hspoken')

end Says

/-! ### Runs within a session -/

/-- What the stations of a session do, with payloads of at most `bound` octets, as long as no expiry of T1
exhausts the retries. -/
def Transfers (bound : Nat) (w : World) : Move → Prop
  | .call (.transmitI data) => data.NonNull ∧ data.len ≤ bound
  | .call .t1Expired => ¬Exhausted w.near.station (counted w.near.ctx)
  | .call (.setLocalBusy _) | .call .t2Expired | .lose _ | .deliver _ => True
  | _ => False

/-- No payload is written over a frame that is still open. -/
def Protects (w : World) : Move → Prop
  | .call c => Spares w.near.station w.near.ctx c
  | .lose _ | .deliver _ => True

instance (w : World) (m : Move) : Decidable (Protects w m) :=
  match m with
  | .call c => inferInstanceAs (Decidable (Spares w.near.station w.near.ctx c))
  | .lose _ | .deliver _ => .isTrue trivial

/-- Two stations that can hear each other, with a transmit window and an application that takes data. -/
structure Matched (w : World) : Prop where
  crc : w.near.station.crc = w.far.station.crc
  nearPassive : w.near.station.platform.Passive
  farPassive : w.far.station.platform.Passive
  nearData : w.near.station.platform.onData.isSome = true
  farData : w.far.station.platform.onData.isSome = true
  nearWindow : w.near.station.txWindow.isSome = true
  farWindow : w.far.station.txWindow.isSome = true

theorem Matched.swap {w : World} (h : Matched w) : Matched w.swap :=
  ⟨h.crc.symm, h.farPassive, h.nearPassive, h.farData, h.nearData, h.farWindow, h.nearWindow⟩

theorem Matched.step {w : World} (h : Matched w) (m : Move) : Matched (w.step m) := by
  obtain ⟨hnear, hfar⟩ := step_stations w m
  constructor
  · rw [hnear, hfar]
    exact h.crc
  · rw [hnear]
    exact h.nearPassive
  · rw [hfar]
    exact h.farPassive
  · rw [hnear]
    exact h.nearData
  · rw [hfar]
    exact h.farData
  · rw [hnear]
    exact h.nearWindow
  · rw [hfar]
    exact h.farWindow

/-- A station of a session: the payloads in its slots, and those it has given to the application. -/
structure Holds (before : Ctx) (e : Endpoint) : Prop where
  kept : Kept (windowOf e.station) e.ctx
  given : Given (payloads before.trace) e.ctx

/-- Two stations that stand for two peers in a session. -/
structure InSession (R : Rules) (bound : Nat) (w₀ w : World) (n : Net (List UInt8)) : Prop where
  near : Stands w.far.station.config.address bound w.near n.near
  far : Stands w.near.station.config.address bound w.far n.far
  inv : Inv R n
  talking : Talking n
  nearHolds : Holds w₀.near.ctx w.near
  farHolds : Holds w₀.far.ctx w.far

theorem InSession.swap {R : Rules} {bound : Nat} {w₀ w : World} {n : Net (List UInt8)}
    (h : InSession R bound w₀ w n) : InSession R bound w₀.swap w.swap n.swap :=
  ⟨h.far, h.near, h.inv.swap, h.talking.swap, h.farHolds, h.nearHolds⟩

/-- The channels lose frames, there are timers, and a repetition repeats the payload. -/
def sessionRules : Rules := ⟨mod8, True, True, True⟩

section InSession

variable {bound : Nat} {w₀ w : World} {n : Net (List UInt8)}

/-- A call leaves what the application has been given as it is. -/
theorem Holds.call {before : Ctx} {e : Endpoint} {peer : UInt8} {x x' : Peer (List UInt8)}
    (hp : e.station.platform.Passive) (hwindow : e.station.txWindow.isSome = true) (h : Holds before e)
    (hstands : Stands peer bound e x) {c : Call} (hlegal : c.Legal) (hin : ∀ bytes, c ≠ .dataIn bytes)
    (hspares : Spares e.station e.ctx c) (hstands' : Stands peer bound (e.call c) x') (hgot : x'.got = x.got) :
    Holds before (e.call c) := by
  obtain ⟨tw, htw⟩ := Option.isSome_iff_exists.mp hwindow
  obtain ⟨hctx, hstation⟩ : (e.call c).ctx = c.run e.station e.ctx ∧ (e.call c).station = e.station :=
    become_eq e _
  have hinv := hstands.reflects.inv
  have hkept := h.kept
  rw [windowOf_eq htw] at hinv hkept
  constructor
  · rw [hstation, hctx, windowOf_eq htw]
    exact Call.kept htw hp hkept hinv hlegal hspares
  · have hreceived : received (e.call c).ctx.trace = received e.ctx.trace := by
      rw [← hstands'.reflects.got, hgot, hstands.reflects.got]
    have hpayloads : payloads (e.call c).ctx.trace = payloads e.ctx.trace := by
      rw [hctx]
      exact Call.payloads_eq hp e.ctx hlegal hin
    have hgiven : payloads e.ctx.trace = payloads before.trace ++ received e.ctx.trace := h.given
    unfold Given
    rw [hpayloads, hreceived, hgiven]

theorem Holds.receive {before : Ctx} {e : Endpoint} {peer : UInt8} {x : Peer (List UInt8)}
    (hp : e.station.platform.Passive) (hdata : e.station.platform.onData.isSome = true)
    (hwindow : e.station.txWindow.isSome = true) (h : Holds before e) (hstands : Stands peer bound e x)
    {sender : Station} (hcrc : sender.crc = e.station.crc) {my : UInt8} {flights : List Flight}
    {ms : List (Msg (List UInt8))} (hms : List.Forall₂ (Carries sender my) flights ms)
    (hnr : ∀ m ∈ ms, m.nr?.isSome = true) : Holds before (e.receive flights) := by
  obtain ⟨tw, htw⟩ := Option.isSome_iff_exists.mp hwindow
  obtain ⟨hctx, hstation⟩ := receive_eq e flights
  have hinv := hstands.reflects.inv
  have hkept := h.kept
  rw [windowOf_eq htw] at hinv hkept
  constructor
  · have hread (bytes : List UInt8) : Kept tw ((Call.dataIn bytes).run e.station e.ctx) :=
      Call.kept htw hp hkept hinv trivial trivial
    rw [hstation, hctx, windowOf_eq htw]
    exact hread _
  · rw [hctx]
    refine h.given.dataIn hp hdata hcrc hms hnr hstands.index fun w hw => ?_
    obtain rfl : tw = w := Option.some.inj (htw.symm.trans hw)
    exact hinv

theorem InSession.call (h : InSession sessionRules bound w₀ w n) (hmatched : Matched w) {c : Call}
    (hlegal : c.Legal) (hin : ∀ bytes, c ≠ .dataIn bytes) (hspares : Spares w.near.station w.near.ctx c)
    (htold : Says w.far.station.config.address bound sessionRules n.near (w.near.call c)) :
    ∃ n', InSession sessionRules bound w₀ (w.step (.call c)) n' := by
  obtain ⟨x', hstands, hgot, hchats⟩ := htold
  obtain ⟨hinv, htalking⟩ := h.talking.chats h.inv (hchats n.far)
  have hholds := h.nearHolds.call hmatched.nearPassive hmatched.nearWindow h.near hlegal hin hspares hstands hgot
  refine ⟨⟨x', n.far⟩, hstands, ?_, hinv, htalking, hholds, h.farHolds⟩
  have hfar := h.far
  rw [← (step_stations w (.call c)).1] at hfar
  exact hfar

theorem InSession.lose (h : InSession sessionRules bound w₀ w n) (i : Nat) :
    ∃ n', InSession sessionRules bound w₀ (w.step (.lose i)) n' := by
  have hout : List.Forall₂ (Carries w.near.station w.far.station.config.address) (w.near.out.eraseIdx i)
      (n.near.out.eraseIdx i) := by
    rw [List.eraseIdx_eq_take_drop_succ, List.eraseIdx_eq_take_drop_succ]
    exact List.rel_append (List.forall₂_take i h.near.out) (List.forall₂_drop (i + 1) h.near.out)
  have hchats : Relation.ReflTransGen (Chat sessionRules) n
      ⟨{ n.near with out := n.near.out.eraseIdx i }, n.far⟩ := by
    rcases Nat.lt_or_ge i n.near.out.length with hlt | hge
    · have hsplit : n.near.out = n.near.out.take i ++ n.near.out[i] :: n.near.out.drop (i + 1) := by
        rw [← List.drop_eq_getElem_cons hlt, List.take_append_drop]
      rw [List.eraseIdx_eq_take_drop_succ]
      exact .single (Or.inl (.lose _ _ _ hsplit (Or.inl trivial)))
    · rw [List.eraseIdx_of_length_le hge]
  obtain ⟨hinv, htalking⟩ := h.talking.chats h.inv hchats
  exact ⟨⟨{ n.near with out := n.near.out.eraseIdx i }, n.far⟩,
    ⟨{ h.near.reflects with }, h.near.index, h.near.pending, h.near.issued, h.near.heard, hout⟩, h.far, hinv,
    htalking, ⟨h.nearHolds.kept, h.nearHolds.given⟩, h.farHolds⟩

theorem InSession.deliver (h : InSession sessionRules bound w₀ w n) (hmatched : Matched w) (k : Nat) :
    ∃ n', InSession sessionRules bound w₀ (w.step (.deliver k)) n' := by
  have hms := List.forall₂_take k h.far.out
  have hnr : ∀ m ∈ n.far.out.take k, m.nr?.isSome = true := fun m hm =>
    h.talking.farOut m (List.mem_of_mem_take hm)
  obtain ⟨x', hstands, hchats⟩ := h.near.receive hmatched.nearPassive rfl h.nearHolds.kept
    hmatched.crc.symm rfl hms (List.take_append_drop k n.far.out).symm h.inv h.talking
  obtain ⟨hinv, htalking⟩ := h.talking.chats h.inv hchats
  have hholds := h.nearHolds.receive hmatched.nearPassive hmatched.nearData hmatched.nearWindow h.near
    hmatched.crc.symm hms hnr
  refine ⟨⟨x', { n.far with out := n.far.out.drop k }⟩, hstands, ?_, hinv, htalking, hholds,
    ⟨h.farHolds.kept, h.farHolds.given⟩⟩
  have hfar : Stands w.near.station.config.address bound { w.far with out := w.far.out.drop k }
      { n.far with out := n.far.out.drop k } :=
    ⟨{ h.far.reflects with }, h.far.index, h.far.pending, h.far.issued, h.far.heard,
      List.forall₂_drop k h.far.out⟩
  rw [← (step_stations w (.deliver k)).1] at hfar
  exact hfar

theorem InSession.step (h : InSession sessionRules bound w₀ w n) (hmatched : Matched w) {m : Move}
    (hm : Transfers bound w m) (hprotects : Protects w m) :
    ∃ n', InSession sessionRules bound w₀ (w.step m) n' := by
  have hup := h.talking.near
  cases m with
  | call c =>
      cases c with
      | transmitI data =>
          exact h.call hmatched hm.1 (by simp) hprotects
            (h.near.says_transmitI hmatched.nearPassive hm.1 fun _ => hm.2)
      | setLocalBusy busy =>
          exact h.call hmatched trivial (by simp) hprotects (h.near.says_setLocalBusy busy)
      | t1Expired =>
          exact h.call hmatched trivial (by simp) hprotects (h.near.says_t1Expired hup hm trivial)
      | t2Expired => exact h.call hmatched trivial (by simp) hprotects (h.near.says_t2Expired hup)
      | _ => exact hm.elim
  | lose i => exact h.lose i
  | deliver k => exact h.deliver hmatched k

/-- A connection without history stands for a peer at the beginning of a session. -/
theorem Fresh.stands_of_windowInv {e : Endpoint} {peer : UInt8} (h : Fresh e)
    (hlinked : Linked e.station.config.address peer e) (hwindowed : Windowed e.station e.ctx)
    (hinv : WindowInv (windowOf e.station) e.ctx) (hpending : e.ctx.retransmitPending = false) :
    Stands peer bound e ⟨.up, (windowOf e.station).slotCount, [], 0, [], 0, 0, 0, []⟩ := by
  refine ⟨⟨?_, hlinked.myAddress, hlinked.peerAddress, hwindowed, hinv, rfl, ?_, ?_, ?_, ?_, ?_⟩,
    hlinked.index, hpending, h.numbers.1, h.numbers.2, ?_⟩
  · rw [h.connected]
    rfl
  · rw [h.session.1]
    rfl
  · exact h.session.2.symm
  · exact h.received.symm
  · exact h.counters.2.2.1
  · rw [h.session.1]
    simp
  · rw [h.out]
    exact .nil

theorem Fresh.stands {e : Endpoint} {peer : UInt8} (h : Fresh e) (hlinked : Linked e.station.config.address peer e)
    (hp : e.station.platform.Passive) {mem : Memory} (hreachable : Reachable e.station mem e.ctx)
    (hwindow : e.station.txWindow.isSome = true) :
    Stands peer bound e ⟨.up, (windowOf e.station).slotCount, [], 0, [], 0, 0, 0, []⟩ := by
  obtain ⟨tw, htw⟩ := Option.isSome_iff_exists.mp hwindow
  have hinv := hreachable.windowInv htw hp
  rw [← windowOf_eq htw] at hinv
  exact h.stands_of_windowInv hlinked (hreachable.windowed hp) hinv (hreachable.not_pending hp)

theorem Fresh.holds {e : Endpoint} (h : Fresh e) : Holds e.ctx e := by
  constructor
  · intro k hk
    rw [h.session.1] at hk
    exact absurd hk (Nat.not_lt_zero k)
  · unfold Given
    rw [h.received, List.append_nil]

/-- Two stations of the application programming interface that have just connected. -/
structure Paired (w : World) : Prop where
  established : Established w
  matched : Matched w
  nearReachable : ∃ mem, Reachable w.near.station mem w.near.ctx
  farReachable : ∃ mem, Reachable w.far.station mem w.far.ctx

theorem Paired.swap {w : World} (h : Paired w) : Paired w.swap :=
  ⟨⟨h.established.swap, h.established.farFresh, h.established.nearFresh⟩, h.matched.swap, h.farReachable,
    h.nearReachable⟩

/-- Two connections without history are at the beginning of a session. -/
theorem Established.inSession (h : Established w)
    (hnear : Stands w.far.station.config.address bound w.near
      ⟨.up, (windowOf w.near.station).slotCount, [], 0, [], 0, 0, 0, []⟩)
    (hfar : Stands w.near.station.config.address bound w.far
      ⟨.up, (windowOf w.far.station).slotCount, [], 0, [], 0, 0, 0, []⟩) :
    ∃ n, InSession sessionRules bound w w n := by
  have hcount (st : Station) : (windowOf st).slotCount < mod8 := Nat.lt_succ_of_le (windowOf st).slotCount_le
  have hstart (u v : Nat) (hu : u < mod8) : Start sessionRules (α := List UInt8) ⟨.up, u, [], 0, [], 0, 0, 0, []⟩
      ⟨.up, v, [], 0, [], 0, 0, 0, []⟩ :=
    ⟨Or.inr ⟨rfl, rfl⟩, hu, rfl, rfl, rfl, Nat.le_refl 0, rfl⟩
  refine ⟨⟨_, _⟩, hnear, hfar, ⟨?_, ?_⟩, ⟨rfl, rfl, by simp, by simp⟩, h.nearFresh.holds, h.farFresh.holds⟩
  · exact (hstart _ _ (hcount _)).dir (hstart _ _ (hcount _))
  · exact (hstart _ _ (hcount _)).dir (hstart _ _ (hcount _))

theorem Paired.inSession (h : Paired w) : ∃ n, InSession sessionRules bound w w n := by
  obtain ⟨mem, hnear⟩ := h.nearReachable
  obtain ⟨mem', hfar⟩ := h.farReachable
  have hopen := h.established
  exact hopen.inSession (hopen.nearFresh.stands hopen.near hopen.nearPassive hnear h.matched.nearWindow)
    (hopen.farFresh.stands hopen.far hopen.farPassive hfar h.matched.farWindow)

end InSession

/-- The payloads given to `on_data` since a moment. -/
def givenSince (before s : Ctx) : List (List UInt8) :=
  (payloads s.trace).drop (payloads before.trace).length

/-- The direction from the near to the far station: what was given to the far application is a prefix of
what the near station accepted, and what the near station counts as acknowledged is part of it. -/
structure Delivers (w₀ w : World) : Prop where
  connected : w.near.ctx.currentState = .connected
  inOrder : givenSince w₀.far.ctx w.far.ctx <+: (session w.near.ctx.trace).sent
  acknowledged : (session w.near.ctx.trace).sent.length - outstanding w.near.ctx ≤
    (givenSince w₀.far.ctx w.far.ctx).length

theorem InSession.delivers {w₀ w : World} {n : Net (List UInt8)} (h : InSession sessionRules 65535 w₀ w n) :
    Delivers w₀ w := by
  have hflow := h.inv.near.flow h.talking.near h.talking.far
  have hreflects := h.near.reflects
  have hsent : n.near.sent = (session w.near.ctx.trace).sent := by
    rw [hreflects.sent]
    exact (List.map_congr_left fun payload hmem => heardInfo_of_le (hreflects.bounded payload hmem)).trans
      (List.map_id _)
  have hgiven : givenSince w₀.far.ctx w.far.ctx = n.far.got := by
    have hsplit : payloads w.far.ctx.trace = payloads w₀.far.ctx.trace ++ received w.far.ctx.trace := h.farHolds.given
    rw [givenSince, hsplit, List.drop_left, h.far.reflects.got]
  refine ⟨?_, ?_, ?_⟩
  · have hlink := hreflects.link.symm.trans h.talking.near
    revert hlink
    cases w.near.ctx.currentState <;> simp [linkOf]
  · rw [hgiven, ← hsent, hflow.got trivial]
    exact List.take_prefix _ _
  · have hinv := hreflects.inv
    rw [outstanding_eq hinv.va hinv.vs hinv.acked_le hinv.lt_mod8, hgiven]
    have hacked := hflow.acked_le
    rw [hreflects.acked] at hacked
    have hle := hinv.acked_le
    omega

/-- What holds along a run of a session in which no payload is written over a frame that is still open. -/
theorem Run.inSession {bound : Nat} {w₀ w : World} (hstart : Paired w₀)
    (hrun : Run (fun w m => Transfers bound w m ∧ Protects w m) w₀ w) :
    Matched w ∧ ∃ n, InSession sessionRules bound w₀ w n := by
  refine hrun.invariant_from (P := fun v w => Matched w ∧ ∃ n, InSession sessionRules bound v w n)
    ⟨hstart.matched, hstart.inSession⟩ ?_ ?_
  · rintro v w ⟨hmatched, n, hn⟩
    exact ⟨hmatched.swap, n.swap, hn.swap⟩
  · rintro v w m ⟨hmatched, n, hn⟩ ⟨hm, hprotects⟩
    exact ⟨hmatched.step m, hn.step hmatched hm hprotects⟩

theorem Run.stations {K : World → Move → Prop} {w₀ w : World} (hrun : Run K w₀ w) :
    w.near.station = w₀.near.station ∧ w.far.station = w₀.far.station := by
  refine hrun.invariant_from (P := fun v w => w.near.station = v.near.station ∧ w.far.station = v.far.station)
    ⟨rfl, rfl⟩ (fun _ _ h => h.symm) fun v w m h _ => ?_
  obtain ⟨hnear, hfar⟩ := step_stations w m
  exact ⟨hnear.trans h.1, hfar.trans h.2⟩

/-- A move of a station whose slots are apart. -/
theorem InSession.protects {bound : Nat} {w₀ w : World} {n : Net (List UInt8)}
    (h : InSession sessionRules bound w₀ w n) (hmatched : Matched w)
    (hapart : ∀ tw ∈ w.near.station.txWindow, SlotsApart tw tw.slotCapacity) (m : Move) : Protects w m := by
  obtain ⟨tw, htw⟩ := Option.isSome_iff_exists.mp hmatched.nearWindow
  have hinv := h.near.reflects.inv
  rw [windowOf_eq htw] at hinv
  cases m with
  | call c => exact hinv.spares htw (hapart tw htw) c
  | lose i => trivial
  | deliver k => trivial

/-- Where the slots of both stations are apart, every run is of that kind. -/
theorem Run.protects {bound : Nat} {w₀ w : World} (hstart : Paired w₀)
    (hnear : ∀ tw ∈ w₀.near.station.txWindow, SlotsApart tw tw.slotCapacity)
    (hfar : ∀ tw ∈ w₀.far.station.txWindow, SlotsApart tw tw.slotCapacity)
    (hrun : Run (Transfers bound) w₀ w) : Run (fun w m => Transfers bound w m ∧ Protects w m) w₀ w := by
  induction hrun with
  | start => exact .start
  | near m _ hm ih =>
      obtain ⟨hmatched, n, hn⟩ := ih.inSession hstart
      rw [← ih.stations.1] at hnear
      exact .near m ih ⟨hm, hn.protects hmatched hnear m⟩
  | far m _ hm ih =>
      obtain ⟨hmatched, n, hn⟩ := ih.inSession hstart
      rw [← ih.stations.2] at hfar
      exact .far m ih ⟨hm, hn.swap.protects hmatched.swap hfar m⟩

/-- In every run of a session in which no payload is written over a frame that is still open, each station
gives its application the payloads that the other one accepted, in their order and each once. -/
theorem session_reliable {w₀ w : World} (hstart : Paired w₀)
    (hrun : Run (fun w m => Transfers 65535 w m ∧ Protects w m) w₀ w) :
    Delivers w₀ w ∧ Delivers w₀.swap w.swap := by
  obtain ⟨-, n, hn⟩ := hrun.inSession hstart
  exact ⟨hn.delivers, hn.swap.delivers⟩

def World.stepFar (w : World) (m : Move) : World := (w.swap.step m).swap

def World.accept (w : World) (payload : List UInt8) : World := w.step (.call (.transmitI (.octets payload)))

/-- The last frame of the near station is lost, an enquiry follows, and everything arrives. -/
def World.repaired (w : World) : World :=
  (w.settled.swap.step (.deliver w.settled.near.out.length)).swap

/-- Two I-frames; the first is lost. -/
def lossyWorld : World := ((mockWorld.accept [0x11]).accept [0x22, 0x23]).step (.lose 0)

theorem mockWorld_paired : Paired mockWorld := by
  refine ⟨mockWorld_established, ⟨rfl, mockPlatform_passive, mockPlatform_passive, rfl, rfl, rfl, rfl⟩, ⟨zeroMemory, ?_⟩, ⟨zeroMemory, ?_⟩⟩
  · exact Reachable.init.foldl (by simp [Call.Legal])
  · exact Reachable.init.foldl (by simp [Call.Legal])

theorem session_reliable_mock : Delivers mockWorld lossyWorld.repaired ∧ Delivers mockWorld.swap lossyWorld.repaired.swap := by
  refine session_reliable mockWorld_paired ?_
  refine .far _ (.near _ (.far _ (.near _ (.near _ (.near _ (.near _ .start ?_) ?_) ?_) ?_) ?_) ?_) ?_
  · exact ⟨⟨Or.inl rfl, by decide⟩, by decide +kernel⟩
  · exact ⟨⟨Or.inl rfl, by decide⟩, by decide +kernel⟩
  · exact ⟨trivial, trivial⟩
  · exact ⟨fun h => absurd h.2 (by decide +kernel), trivial⟩
  · exact ⟨trivial, trivial⟩
  · exact ⟨trivial, trivial⟩
  · exact ⟨trivial, trivial⟩

/-- A station whose slots overlap, and one whose slots do not. -/
def wideWorld : World :=
  ⟨⟨wideStation, (sending []).foldl (Call.run wideStation) (initCtx wideStation zeroMemory), 0, 0, []⟩,
    mockEndpoint 0x02 0x01⟩

theorem wideWorld_paired : Paired wideWorld := by
  refine ⟨⟨⟨?_, ?_, by decide, mockPlatform_passive, mockPlatform_passive⟩, ?_, ?_⟩,
    ⟨rfl, mockPlatform_passive, mockPlatform_passive, rfl, rfl, rfl, rfl⟩, ⟨zeroMemory, ?_⟩, ⟨zeroMemory, ?_⟩⟩
  · exact ⟨by decide +kernel, by decide +kernel, by decide +kernel, by simp [wideWorld]⟩
  · exact mockWorld_established.far
  · exact ⟨by decide +kernel, by decide +kernel, by decide +kernel, by decide +kernel, by decide +kernel,
      by decide +kernel, ⟨rfl, rfl⟩, rfl⟩
  · exact mockWorld_established.farFresh
  · exact Reachable.init.foldl (by simp [sending, Call.Legal])
  · exact Reachable.init.foldl (by simp [Call.Legal])

/-- Three I-frames, of which none arrives. -/
def wideLost : World :=
  (((((wideWorld.accept [0x11]).accept [0x22]).accept [0x33]).step (.lose 0)).step (.lose 0)).step (.lose 0)

/-- The third payload was written over the first, and is given to the application twice. -/
theorem overlapping_slots_deliver_wrong :
    Paired wideWorld ∧ Run (Transfers 65535) wideWorld wideLost.repaired ∧
      givenSince wideWorld.far.ctx wideLost.repaired.far.ctx = [[0x33], [0x22], [0x33]] ∧
      (session wideLost.repaired.near.ctx.trace).sent = [[0x11], [0x22], [0x33]] ∧
      ¬Delivers wideWorld wideLost.repaired := by
  have hgiven : givenSince wideWorld.far.ctx wideLost.repaired.far.ctx = [[0x33], [0x22], [0x33]] := by
    decide +kernel
  have hsent : (session wideLost.repaired.near.ctx.trace).sent = [[0x11], [0x22], [0x33]] := by decide +kernel
  refine ⟨wideWorld_paired, ?_, hgiven, hsent, fun h => ?_⟩
  · refine .far _ (.near _ (.far _ (.near _ (.near _ (.near _ (.near _ (.near _ (.near _ (.near _ .start
      ?_) ?_) ?_) ?_) ?_) ?_) ?_) ?_) ?_) ?_
    · exact ⟨Or.inl rfl, by decide⟩
    · exact ⟨Or.inl rfl, by decide⟩
    · exact ⟨Or.inl rfl, by decide⟩
    · trivial
    · trivial
    · trivial
    · exact fun h => absurd h.2 (by decide +kernel)
    · trivial
    · trivial
    · trivial
  · have hprefix := h.inOrder
    rw [hgiven, hsent] at hprefix
    exact absurd hprefix (by decide)

end AtcHdlc
