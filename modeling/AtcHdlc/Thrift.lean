import AtcHdlc.Connection

/-! A session over lines that lose nothing, as long as T1 does not run out. Each payload is put on the line once,
what arrives is taken, and what else goes over the lines is RR and RNR that neither polls nor answers: nothing
is asked for again, and nothing is rejected (`session_thrifty`). The stations may be busy meanwhile. -/

namespace AtcHdlc

open DataLink

/-- The payloads of the I-frames among some frames. -/
def carried (fs : List Frame) : List (List UInt8) := (fs.filter (isIframe ·.ctrl)).map Frame.info

theorem carried_append (fs gs : List Frame) : carried (fs ++ gs) = carried fs ++ carried gs := by
  rw [carried, List.filter_append, List.map_append]
  rfl

/-- An RR or an RNR that neither polls nor answers. -/
def Frame.Bare (f : Frame) : Prop :=
  ∃ kind nr, (kind = sRr ∨ kind = sRnr) ∧ f.ctrl = sCtrl kind nr false ∧ f.info = []

/-- The I-frame with the number `n`, or no I-frame at all. -/
def Frame.Next (peer : UInt8) (n : Nat) (f : Frame) : Prop :=
  (∃ nr, f.address = peer ∧ f.ctrl = iCtrl n nr false) ∨ f.Bare

/-- From `n` on, every I-frame has the number after that of the one before it. -/
def InTurn (peer : UInt8) : Nat → List Frame → Prop
  | _, [] => True
  | n, f :: fs => f.Next peer n ∧ InTurn peer (n + (carried [f]).length) fs

section InTurn

variable {peer : UInt8} {n : Nat} {f : Frame} {fs gs : List Frame}

theorem carried_iframe {ns nr : Nat} (h : f.ctrl = iCtrl ns nr false) : carried [f] = [f.info] := by
  have hi : isIframe f.ctrl = true := by
    rw [h]
    exact (iCtrl_fields ns nr false).1
  simp [carried, hi]

theorem Frame.Bare.numbered (h : f.Bare) : isUframe f.ctrl = false ∧ isIframe f.ctrl = false := by
  obtain ⟨kind, nr, -, hctrl, -⟩ := h
  have hs := (sCtrl_fields kind nr false).1
  rw [← hctrl] at hs
  rcases ctrl_cases f.ctrl with ⟨-, hs', -⟩ | ⟨hi, -, hu⟩ | ⟨-, hs', -⟩
  · exact absurd (hs.symm.trans hs') (by decide)
  · exact ⟨hu, hi⟩
  · exact absurd (hs.symm.trans hs') (by decide)

theorem Frame.Bare.carries_nothing (h : f.Bare) : carried [f] = [] := by
  simp [carried, h.numbered.2]

theorem carried_bare (h : ∀ f ∈ fs, f.Bare) : carried fs = [] := by
  rw [carried, List.map_eq_nil_iff, List.filter_eq_nil_iff]
  exact fun f hf => by rw [(h f hf).numbered.2]; exact Bool.false_ne_true

theorem inTurn_bare (h : ∀ f ∈ fs, f.Bare) : InTurn peer n fs := by
  induction fs generalizing n with
  | nil => trivial
  | cons f fs ih => exact ⟨Or.inr (h f List.mem_cons_self), ih fun g hg => h g (List.mem_cons_of_mem _ hg)⟩

theorem inTurn_append : InTurn peer n (fs ++ gs) ↔ InTurn peer n fs ∧ InTurn peer (n + (carried fs).length) gs := by
  induction fs generalizing n with
  | nil => simp [InTurn, carried]
  | cons f fs ih =>
      have hcarried : carried (f :: fs) = carried [f] ++ carried fs := carried_append [f] fs
      rw [List.cons_append, InTurn, InTurn, ih, hcarried, List.length_append, ← Nat.add_assoc, and_assoc]

/-- A frame in turn has no information, or it is among the payloads. -/
theorem InTurn.info (h : InTurn peer n fs) (hf : f ∈ fs) : f.info = [] ∨ f.info ∈ carried fs := by
  induction fs generalizing n with
  | nil => exact absurd hf List.not_mem_nil
  | cons g fs ih =>
      have hcarried : carried (g :: fs) = carried [g] ++ carried fs := carried_append [g] fs
      rw [hcarried, List.mem_append]
      rcases List.mem_cons.mp hf with rfl | hf
      · rcases h.1 with ⟨nr, -, hctrl⟩ | ⟨kind, nr, -, -, hinfo⟩
        · rw [carried_iframe hctrl]
          exact Or.inr (Or.inl List.mem_cons_self)
        · exact Or.inl hinfo
      · exact (ih h.2 hf).imp_right Or.inr

end InTurn

/-- Different frames are different on the line. -/
theorem wire_injective {crc : CrcOps} {f g : Frame} (h : f.wire crc = g.wire crc) : f = g := by
  have hoctets : f.octets crc = g.octets crc := congrArg Wire.octets h
  have hstuffed : octetCode.stuff (f.content crc) = octetCode.stuff (g.content crc) :=
    List.append_cancel_right (List.cons.inj hoctets).2
  have hcontent : f.content crc = g.content crc := by
    rw [← octetCode.unstuff_stuff (f.content crc), hstuffed, octetCode.unstuff_stuff]
  rw [← segmentFrame_content crc f, hcontent, segmentFrame_content]

/-- What a station makes of frames that come in turn: it takes their payloads, and answers at most with RNRs. -/
structure Takes (st : Station) (s s' : Ctx) (fs : List Frame) : Prop where
  received : received s'.trace = received s.trace ++ carried fs
  sent : (session s'.trace).sent = (session s.trace).sent
  said : ∃ gs : List Frame, wires s'.trace = wires s.trace ++ gs.map (Frame.wire st.crc) ∧ ∀ g ∈ gs, g.Bare

section Takes

variable {st : Station} {s s' s'' : Ctx} {fs gs : List Frame}

theorem Takes.nil (s : Ctx) : Takes st s s [] :=
  ⟨(List.append_nil _).symm, rfl, [], (List.append_nil _).symm, fun _ h => absurd h List.not_mem_nil⟩

theorem Takes.trans (h : Takes st s s' fs) (h' : Takes st s' s'' gs) : Takes st s s'' (fs ++ gs) := by
  obtain ⟨hs, hwires, hbare⟩ := h.said
  obtain ⟨hs', hwires', hbare'⟩ := h'.said
  refine ⟨?_, h'.sent.trans h.sent, hs ++ hs', ?_, List.forall_mem_append.mpr ⟨hbare, hbare'⟩⟩
  · rw [h'.received, h.received, carried_append, List.append_assoc]
  · rw [hwires', hwires, List.map_append, List.append_assoc]

theorem Takes.congr (h : Takes st s s' fs) {t t' : Ctx} (ht : t.trace = s.trace) (ht' : t'.trace = s'.trace) :
    Takes st t t' fs := by
  obtain ⟨hreceived, hsent, hsaid⟩ := h
  rw [← ht, ← ht'] at hreceived hsent hsaid
  exact ⟨hreceived, hsent, hsaid⟩

/-- An I-frame without P is answered at most with an RNR. -/
theorem LinkView.face_receive_bare (st : Station) (v : LinkView) (payload : List UInt8) :
    ∃ gs : List Frame, (∀ g ∈ gs, g.Bare) ∧ (v.receive st false payload).face =
      { v.face.receive payload with wires := v.face.wires ++ gs.map (Frame.wire st.crc) } := by
  have hsilent : v.face.receive payload =
      { v.face.receive payload with wires := v.face.wires ++ ([] : List Frame).map (Frame.wire st.crc) } :=
    Face.ext rfl rfl rfl rfl rfl (List.append_nil _).symm
  unfold receive acknowledge
  simp only [Bool.false_eq_true, if_false]
  split_ifs
  · exact ⟨[], fun _ h => absurd h List.not_mem_nil, hsilent⟩
  · refine ⟨[⟨v.myAddress, sCtrl sRnr ((v.vr + 1) % mod8) false, []⟩], ?_, face_sayS st _ _ _ _⟩
    exact List.forall_mem_singleton.mpr ⟨sRnr, _, Or.inr rfl, rfl, rfl⟩
  · exact ⟨[], fun _ h => absurd h List.not_mem_nil, hsilent⟩

variable {peer : UInt8} {bound : Nat} {x : Peer (List UInt8)} {f : Frame} {n : Nat}

/-- What such a frame shows. -/
theorem face_next (hp : st.platform.Passive) (hstate : s.currentState = .connected) (hturn : f.Next st.config.address n)
    (hvr : s.vr = n % mod8) (hvalid : nrValid s (ctrlNr f.ctrl) = true) (hlen : f.info.length ≤ 65535) :
    ∃ gs : List Frame, (∀ g ∈ gs, g.Bare) ∧ (face (f.arriving.dispatch st s)).got = (face s).got ++ carried [f] ∧
      (face (f.arriving.dispatch st s)).wires = (face s).wires ++ gs.map (Frame.wire st.crc) := by
  have hctrl : f.arriving.ctrl = f.ctrl := rfl
  rw [face_dispatch hp]
  rcases hturn with ⟨nr, -, hi⟩ | hbare
  · obtain ⟨hiframe, hns, hnr, hpf⟩ := iCtrl_fields n nr false
    rw [← hi] at hiframe hns hnr hpf
    have hu : isUframe f.ctrl = false := by
      rcases ctrl_cases f.ctrl with ⟨-, -, hu⟩ | ⟨-, -, hu⟩ | ⟨hi', -, -⟩
      · exact hu
      · exact hu
      · exact absurd (hiframe.symm.trans hi') (by decide)
    have hnext : (linkView s).next st s f.arriving =
        ((linkView s).tell (opened st s (ctrlNr f.ctrl))).receive st false (heardInfo f.info) := by
      have hsame : n % 8 = s.vr := hvr.symm
      simp only [LinkView.next, hstate, hctrl, hu, hiframe, hns, hpf, hvalid, arriving_info, hsame,
        Bool.false_eq_true, not_true_eq_false, if_true, if_false]
    obtain ⟨gs, hgs, hface⟩ := LinkView.face_receive_bare st ((linkView s).tell (opened st s (ctrlNr f.ctrl)))
      (heardInfo f.info)
    refine ⟨gs, hgs, ?_, ?_⟩
    · rw [hnext, hface, carried_iframe hi, heardInfo_of_le hlen]
      rfl
    · rw [hnext, hface]
      rfl
  · obtain ⟨hu, hiframe⟩ := hbare.numbered
    refine ⟨[], fun _ h => absurd h List.not_mem_nil, ?_⟩
    obtain ⟨kind, nr, -, hs, -⟩ := id hbare
    have hpf : ctrlPf f.ctrl = false := by
      rw [hs]
      exact (sCtrl_fields kind nr false).2.2.2
    have hnext : (linkView s).next st s f.arriving =
        ((linkView s).busy st (ctrlS f.ctrl)).tell (opened st s (ctrlNr f.ctrl)) := by
      simp only [LinkView.next, hstate, hctrl, hu, hiframe, hpf, hvalid, LinkView.poll, Bool.and_false,
        Bool.false_eq_true, not_true_eq_false, if_false]
    rw [hnext, LinkView.face_tell, LinkView.face_busy, hbare.carries_nothing]
    exact ⟨(List.append_nil _).symm, (List.append_nil _).symm⟩

/-- Such a frame asks for nothing again. -/
theorem next_not_arms (hturn : f.Next st.config.address n) (s : Ctx) : arms s f.address f.ctrl = false := by
  rcases hturn with ⟨nr, -, hi⟩ | ⟨kind, nr, hkind, hs, -⟩
  · have hs : isSframe f.ctrl = false := by
      rw [hi]
      have hiframe := (iCtrl_fields n nr false).1
      rcases ctrl_cases (iCtrl n nr false) with ⟨-, hs, -⟩ | ⟨hi', -, -⟩ | ⟨-, hs, -⟩
      · exact hs
      · exact absurd (hiframe.symm.trans hi') (by decide)
      · exact hs
    simp [arms, hs]
  · obtain ⟨-, hkinds, -, hpf⟩ := sCtrl_fields kind nr false
    rw [← hs] at hkinds hpf
    have hrej : ctrlS f.ctrl ≠ sRej := by
      rcases hkind with rfl | rfl <;> rw [hkinds] <;> decide
    simp [arms, hrej, hpf]

end Takes

section Hear

variable {st : Station} {peer : UInt8} {bound : Nat} {R : Rules} {s : Ctx} {x y : Peer (List UInt8)} {f : Frame}
  {rest : List (Msg (List UInt8))}

/-- In a session every N(R) that arrives is valid. -/
theorem Reflects.valid (hR : R.modulus = mod8) (h : Reflects st peer bound s x) (hinv : Inv R ⟨x, y⟩)
    (hup : x.link = .up) {k : Nat} {m : Msg (List UInt8)} (hm : Means peer st.config.address f k m)
    (hnr : m.nr?.isSome = true) (hout : y.out = m :: rest) : nrValid s (ctrlNr f.ctrl) = true := by
  obtain ⟨hlink, -⟩ := hinv.handle_nr hup hnr hout
  rw [h.nrValid_iff (ctrlNr_lt f.ctrl)]
  by_contra hinvalid
  have hbroken : (handle R x m).link = .broken := by
    cases hm with
    | data ns r _ hctrl =>
        have hfield : ctrlNr f.ctrl = r % mod8 := by
          rw [hctrl]
          exact (iCtrl_fields ns r false).2.2.1
        rw [hfield] at hinvalid
        simp only [handle, hup, handleAck, hR, if_neg hinvalid]
        rfl
    | ack kind r poll _ hctrl =>
        have hfield : ctrlNr f.ctrl = r % mod8 := by
          rw [hctrl]
          exact (sCtrl_fields kind r poll).2.2.1
        rw [hfield] at hinvalid
        simp only [handle, hup, handleAck, hR, if_neg hinvalid]
        rfl
    | setup | release | accept | refuse | reject => exact absurd hnr (by simp [Msg.nr?])
  exact absurd (hlink.symm.trans hbroken) (by decide)

/-- The octets of a frame in its turn. -/
theorem Reflects.takes (hp : st.platform.Passive) (h : Reflects st peer bound s x) (hindex : s.rxIndex = 0)
    (hpending : s.retransmitPending = false) (hup : x.link = .up) {k : Nat} {m : Msg (List UInt8)}
    (hm : Means peer st.config.address f k m) (hnr : m.nr?.isSome = true)
    (hvalid : nrValid s (ctrlNr f.ctrl) = true) (hturn : f.Next st.config.address (received s.trace).length)
    (hfits : f.info.length + 4 ≤ st.rxCapacity) (hlen : f.info.length ≤ 65535) :
    Takes st s (rxBytes st s (f.octets st.crc)) [f] ∧
      (rxBytes st s (f.octets st.crc)).retransmitPending = false := by
  obtain ⟨t, hread⟩ := @rxBytes_octets st s hindex f
  obtain ⟨haddr, -⟩ := hm.accepted st x
  rw [h.myAddress, h.peerAddress, if_pos ⟨haddr, hfits⟩] at hread
  rw [hread]
  have hstate : s.currentState = .connected := linkOf_up.mp (h.link.symm.trans hup)
  have hresets : ¬resets (s.withParser t) f.arriving.ctrl = true := by
    have hu : isUframe f.arriving.ctrl = false := hm.numbered hnr
    simp [resets, hu]
  have hbefore : Reflects st peer bound (s.withParser t) x := h.quiet (.of_trace rfl rfl rfl rfl rfl rfl rfl) rfl
  have hvr : (s.withParser t).vr = (received s.trace).length % mod8 := by
    rw [← h.got]
    exact h.vr
  constructor
  · obtain ⟨gs, hgs, hgot, hwires⟩ := face_next hp (s := s.withParser t) hstate hturn hvr hvalid hlen
    have hsession := session_dispatch hp hbefore.windowed hbefore.inv f.arriving
    rw [if_neg hresets] at hsession
    rw [face_wires, face_wires] at hwires
    have htakes : Takes st (s.withParser t) (f.arriving.dispatch st (s.withParser t)) [f] := by
      refine ⟨hgot, ?_, gs, hwires, hgs⟩
      rw [hsession]
      split_ifs <;> rfl
    exact htakes.congr rfl rfl
  · have hview := congrArg AckView.retransmitPending (dispatchFrame_ackView hp hbefore.windowed f.arriving)
    have harms : arms (s.withParser t) f.arriving.address f.arriving.ctrl = false := next_not_arms hturn _
    have hstill : (s.withParser t).retransmitPending = false := hpending
    refine hview.trans ?_
    rw [AckView.next, if_neg hresets, harms, Bool.or_false]
    exact hstill

/-- A chunk of frames in turn. -/
theorem Reflects.takes_all (hp : st.platform.Passive) (hR : R.modulus = mod8) {sender : Station}
    (hcrc : sender.crc = st.crc) (hpeer : sender.config.address = peer) {flights : List Flight}
    {ms : List (Msg (List UInt8))} (hms : List.Forall₂ (Carries sender st.config.address) flights ms)
    {fs : List Frame} (hfs : flights.map Flight.wire = fs.map (Frame.wire sender.crc))
    (hturn : InTurn st.config.address (received s.trace).length fs)
    (hfits : ∀ f ∈ fs, f.info.length + 4 ≤ st.rxCapacity ∧ f.info.length ≤ 65535)
    (h : Reflects st peer bound s x) (hindex : s.rxIndex = 0) (hpending : s.retransmitPending = false)
    (hout : y.out = ms ++ rest) (hinv : Inv R ⟨x, y⟩) (htalking : Talking ⟨x, y⟩) :
    ∃ x', Reflects st peer bound (rxBytes st s (flights.flatMap fun f => f.wire.octets)) x' ∧
      (rxBytes st s (flights.flatMap fun f => f.wire.octets)).rxIndex = 0 ∧
      (rxBytes st s (flights.flatMap fun f => f.wire.octets)).retransmitPending = false ∧
      Spoken st peer s (rxBytes st s (flights.flatMap fun f => f.wire.octets)) x x' ∧
      Relation.ReflTransGen (Chat R) ⟨x, y⟩ ⟨x', { y with out := rest }⟩ ∧
      Takes st s (rxBytes st s (flights.flatMap fun f => f.wire.octets)) fs := by
  induction hms generalizing s x y fs with
  | nil =>
      obtain rfl : fs = [] := List.map_eq_nil_iff.mp hfs.symm
      have hsame : { y with out := rest } = y := by
        rw [← List.nil_append rest, ← hout]
      rw [hsame]
      exact ⟨x, h, hindex, hpending, .silent rfl rfl rfl rfl, .refl, .nil s⟩
  | @cons flight m flights ms hm _ ih =>
      cases fs with
      | nil => simp at hfs
      | cons f fs =>
          obtain ⟨f', hwire', hmeans⟩ := hm
          obtain ⟨hwire, htail⟩ := List.cons.inj hfs
          obtain rfl : f' = f := wire_injective (hwire'.symm.trans hwire)
          have hnr : m.nr?.isSome = true :=
            htalking.farOut m (by rw [hout]; exact List.mem_append_left _ List.mem_cons_self)
          rw [hpeer] at hmeans
          have hvalid := h.valid hR hinv htalking.near hmeans hnr hout
          obtain ⟨hfirst, hfollow⟩ := hturn
          obtain ⟨hroom, hlen⟩ := hfits f' List.mem_cons_self
          obtain ⟨htakes, hpending₁⟩ := h.takes hp hindex hpending htalking.near hmeans hnr hvalid hfirst hroom hlen
          have hunarmed : ArmedIn st s x := fun harmed => absurd (hpending.symm.trans harmed) (by decide)
          obtain ⟨x₁, hx₁, -, hindex₁, -, hspoken₁, harrives⟩ :=
            h.arrive hp hR hunarmed hindex hmeans fun _ => hnr
          have hchats := harrives y (ms ++ rest) hout
            (fun _ n heq => absurd hnr (by simp [heq, Msg.nr?]))
            (fun _ n heq => absurd hnr (by simp [heq, Msg.nr?]))
            (fun heq => absurd hnr (by simp [heq, Msg.nr?]))
          obtain ⟨hinv₁, htalking₁⟩ := htalking.chats hinv hchats
          have hlisten : listen x m = x := by
            cases m with
            | data | ack => rfl
            | _ => exact absurd hnr (by simp [Msg.nr?])
          rw [hlisten] at hspoken₁
          have hoctets : flight.wire.octets = f'.octets st.crc := by
            rw [hwire', hcrc]
            rfl
          have hread : rxBytes st s ((flight :: flights).flatMap fun f => f.wire.octets) =
              rxBytes st (rxBytes st s (f'.octets st.crc)) (flights.flatMap fun f => f.wire.octets) := by
            rw [List.flatMap_cons, hoctets, rxBytes, List.foldl_append]
            rfl
          rw [← List.length_append, ← htakes.received] at hfollow
          obtain ⟨x', hx', hindex', hpending', hspoken', hrest, htakes'⟩ :=
            ih (y := { y with out := ms ++ rest }) htail hfollow (fun g hg => hfits g (List.mem_cons_of_mem _ hg))
              hx₁ hindex₁ hpending₁ rfl hinv₁ htalking₁
          rw [hread]
          exact ⟨x', hx', hindex', hpending', hspoken₁.trans hspoken', hchats.trans hrest, htakes.trans htakes'⟩

end Hear

/-! ### Runs -/

/-- The direction from the near to the far station. Since the session began the near station has put the frames
`heard ++ coming` on the line, and what is on its way is `coming`: they carry each accepted payload once, and the
far application has been given what has arrived. -/
structure Thrifty (w₀ w : World) (heard coming : List Frame) : Prop where
  line : wires w.near.ctx.trace =
    wires w₀.near.ctx.trace ++ (heard ++ coming).map (Frame.wire w.near.station.crc)
  way : w.near.out.map Flight.wire = coming.map (Frame.wire w.near.station.crc)
  inTurn : InTurn w.far.station.config.address 0 (heard ++ coming)
  accepted : carried (heard ++ coming) = (session w.near.ctx.trace).sent
  given : payloads w.far.ctx.trace = payloads w₀.far.ctx.trace ++ carried heard

/-- The longest payload that a station has room for and whose length 16 bits can tell. -/
def receivable (st : Station) : Nat := min (st.rxCapacity - 4) 65535

theorem receivable_room (st : Station) : receivable st + 4 ≤ st.rxCapacity := by
  have hmin : 4 ≤ st.rxCapacity := st.rxCapacity_frame
  have hle : receivable st ≤ st.rxCapacity - 4 := Nat.min_le_left _ _
  omega

/-- What the stations of a session do where nothing is lost and T1 does not run out, with accepted payloads that the
other station can receive. -/
def Untroubled (w : World) : Move → Prop
  | .call (.transmitI data) => data.NonNull ∧
      ((transmitI w.near.station w.near.ctx data).1 = .ok → data.len ≤ receivable w.far.station)
  | .call (.setLocalBusy _) | .call .t2Expired | .deliver _ => True
  | _ => False

/-- Two stations that stand for two peers in a session without a loss. -/
structure Smooth (w₀ w : World) (n : Net (List UInt8)) : Prop where
  near : Stands w.far.station.config.address (receivable w.far.station) w.near n.near
  far : Stands w.near.station.config.address (receivable w.near.station) w.far n.far
  inv : Inv sessionRules n
  talking : Talking n
  matched : Matched w
  nearGiven : Given (payloads w₀.near.ctx.trace) w.near.ctx
  farGiven : Given (payloads w₀.far.ctx.trace) w.far.ctx
  toFar : ∃ heard coming, Thrifty w₀ w heard coming
  toNear : ∃ heard coming, Thrifty w₀.swap w.swap heard coming

section Smooth

variable {w₀ w : World} {n : Net (List UInt8)}

theorem Smooth.swap (h : Smooth w₀ w n) : Smooth w₀.swap w.swap n.swap :=
  ⟨h.far, h.near, h.inv.swap, h.talking.swap, h.matched.swap, h.farGiven, h.nearGiven, h.toNear, h.toFar⟩

/-- The near station puts some more frames on the line. -/
theorem Thrifty.grow {heard coming gs : List Frame} (h : Thrifty w₀ w heard coming) {e : Endpoint}
    (hstation : e.station = w.near.station)
    (hwires : wires e.ctx.trace = wires w.near.ctx.trace ++ gs.map (Frame.wire w.near.station.crc))
    (hout : e.out.map Flight.wire = w.near.out.map Flight.wire ++ gs.map (Frame.wire w.near.station.crc))
    (hturn : InTurn w.far.station.config.address (session w.near.ctx.trace).sent.length gs)
    (hsent : (session e.ctx.trace).sent = (session w.near.ctx.trace).sent ++ carried gs) :
    Thrifty w₀ ⟨e, w.far⟩ heard (coming ++ gs) := by
  refine ⟨?_, ?_, ?_, ?_, h.given⟩
  · show wires e.ctx.trace = _ ++ (heard ++ (coming ++ gs)).map (Frame.wire e.station.crc)
    rw [hwires, h.line, hstation, List.append_assoc, ← List.map_append, List.append_assoc]
  · show e.out.map Flight.wire = (coming ++ gs).map (Frame.wire e.station.crc)
    rw [hout, h.way, hstation, List.map_append]
  · rw [← List.append_assoc, inTurn_append]
    refine ⟨h.inTurn, ?_⟩
    rw [h.accepted, Nat.zero_add]
    exact hturn
  · rw [← List.append_assoc, carried_append, h.accepted]
    exact hsent.symm

/-- A call of the near station. -/
theorem Smooth.call (h : Smooth w₀ w n) {c : Call} (hlegal : c.Legal) (hin : ∀ bytes, c ≠ .dataIn bytes)
    (hsaid : Says w.far.station.config.address (receivable w.far.station) sessionRules n.near (w.near.call c))
    {gs : List Frame}
    (hwires : wires (c.run w.near.station w.near.ctx).trace =
      wires w.near.ctx.trace ++ gs.map (Frame.wire w.near.station.crc))
    (hturn : InTurn w.far.station.config.address (session w.near.ctx.trace).sent.length gs)
    (hsent : (session (c.run w.near.station w.near.ctx).trace).sent =
      (session w.near.ctx.trace).sent ++ carried gs) : ∃ n', Smooth w₀ (w.step (.call c)) n' := by
  obtain ⟨x', hstands, hgot, hchats⟩ := hsaid
  obtain ⟨hinv, htalking⟩ := h.talking.chats h.inv (hchats n.far)
  obtain ⟨hctx, hstation⟩ : (w.near.call c).ctx = c.run w.near.station w.near.ctx ∧
      (w.near.call c).station = w.near.station := become_eq w.near _
  obtain ⟨heard, coming, hfar⟩ := h.toFar
  obtain ⟨heard', coming', hnear⟩ := h.toNear
  have hpayloads : payloads (w.near.call c).ctx.trace = payloads w.near.ctx.trace := by
    rw [hctx]
    exact Call.payloads_eq h.matched.nearPassive w.near.ctx hlegal hin
  have hreceived : received (w.near.call c).ctx.trace = received w.near.ctx.trace := by
    rw [← hstands.reflects.got, hgot, h.near.reflects.got]
  have hfarStands := h.far
  rw [← (step_stations w (.call c)).1] at hfarStands
  refine ⟨⟨x', n.far⟩, hstands, hfarStands, hinv, htalking, h.matched.step _, ?_, h.farGiven, ?_, ?_⟩
  · have hgiven : payloads w.near.ctx.trace = payloads w₀.near.ctx.trace ++ received w.near.ctx.trace := h.nearGiven
    show payloads (w.near.call c).ctx.trace = _ ++ received (w.near.call c).ctx.trace
    rw [hpayloads, hreceived, hgiven]
  · refine ⟨heard, coming ++ gs, hfar.grow hstation ?_ (become_wires hwires) hturn ?_⟩
    · rw [hctx]
      exact hwires
    · rw [hctx]
      exact hsent
  · refine ⟨heard', coming', hnear.line, hnear.way, ?_, hnear.accepted, hpayloads.trans hnear.given⟩
    have hturn' := hnear.inTurn
    show InTurn (w.near.call c).station.config.address 0 _
    rw [hstation]
    exact hturn'

/-- A call that leaves the window alone and says at most what is bare. -/
theorem Smooth.leaves (h : Smooth w₀ w n) {c : Call} (hlegal : c.Legal) (hin : ∀ bytes, c ≠ .dataIn bytes)
    (hsaid : Says w.far.station.config.address (receivable w.far.station) sessionRules n.near (w.near.call c))
    {state : State} {gs : List Frame} (hl : Leaves w.near.station w.near.ctx (c.run w.near.station w.near.ctx) state gs)
    (hbare : ∀ g ∈ gs, g.Bare) : ∃ n', Smooth w₀ (w.step (.call c)) n' := by
  refine h.call hlegal hin hsaid hl.wires (inTurn_bare hbare) ?_
  obtain ⟨os, hos, htrace⟩ := hl.quiet.trace
  rw [htrace, session_neutral _ hos, carried_bare hbare, List.append_nil]

theorem Smooth.transmitI (h : Smooth w₀ w n) {data : Payload} (hdata : data.NonNull)
    (hlen : (transmitI w.near.station w.near.ctx data).1 = .ok → data.len ≤ receivable w.far.station) :
    ∃ n', Smooth w₀ (w.step (.call (.transmitI data))) n' := by
  have hreflects := h.near.reflects
  by_cases hok : (AtcHdlc.transmitI w.near.station w.near.ctx data).1 = .ok
  · have hsaid := h.near.says_transmitI (R := sessionRules) h.matched.nearPassive hdata fun _ => hlen hok
    obtain ⟨-, tw, -, haccepted⟩ := transmitI_ok hok
    have hrun : (Call.transmitI data).run w.near.station w.near.ctx = acceptI w.near.station tw w.near.ctx data :=
      haccepted
    have hctrl : iCtrl w.near.ctx.vs w.near.ctx.vr false =
        iCtrl (session w.near.ctx.trace).sent.length n.near.got.length false := by
      rw [hreflects.inv.vs, hreflects.vr]
      exact iCtrl_mod _ _ _
    have hcarried : carried [⟨w.near.ctx.peerAddress, iCtrl w.near.ctx.vs w.near.ctx.vr false, data.read⟩] =
        [data.read] := carried_iframe rfl
    have hline : onLine (acceptI w.near.station tw w.near.ctx data).trace = onLine (w.near.ctx.put w.near.station
        ⟨w.near.ctx.peerAddress, iCtrl w.near.ctx.vs w.near.ctx.vr false, data.read⟩).trace :=
      (congrArg LinkView.line (linkView_acceptI w.near.ctx hdata)).trans
        (congrArg LinkView.line (linkView_put w.near.ctx _)).symm
    have hturn : InTurn w.far.station.config.address (session w.near.ctx.trace).sent.length
        [⟨w.near.ctx.peerAddress, iCtrl w.near.ctx.vs w.near.ctx.vr false, data.read⟩] :=
      ⟨Or.inl ⟨_, hreflects.peerAddress, hctrl⟩, trivial⟩
    refine h.call hdata (by simp) hsaid ?_ hturn ?_
    · rw [hrun, ← wires_onLine, hline, wires_onLine]
      exact wires_obs _ _ _ _
    · rw [hrun, session_acceptI w.near.ctx hdata, hcarried]
  · have hl : Leaves w.near.station w.near.ctx ((Call.transmitI data).run w.near.station w.near.ctx)
        w.near.ctx.currentState [] := by
      rw [Call.run, transmitI_of_not_ok hok]
      exact .same _
    exact h.leaves hdata (by simp) (h.near.says_nothing hl) hl fun _ hg => absurd hg List.not_mem_nil

theorem Smooth.setLocalBusy (h : Smooth w₀ w n) (busy : Bool) :
    ∃ n', Smooth w₀ (w.step (.call (.setLocalBusy busy))) n' := by
  have hflag (b : Bool) :
      Leaves w.near.station w.near.ctx { w.near.ctx with localBusy := b } w.near.ctx.currentState [] :=
    .fields w.near.ctx _ (.of_trace rfl rfl rfl rfl rfl rfl rfl) rfl rfl rfl
  have hleaves : ∃ gs : List Frame, (∀ g ∈ gs, g.Bare) ∧
      Leaves w.near.station w.near.ctx (AtcHdlc.setLocalBusy w.near.station w.near.ctx busy).2
        w.near.ctx.currentState gs := by
    unfold AtcHdlc.setLocalBusy
    simp only [sendRr, sendS_eq]
    split_ifs
    · exact ⟨[], fun _ hg => absurd hg List.not_mem_nil, .same _⟩
    · exact ⟨[], fun _ hg => absurd hg List.not_mem_nil, hflag true⟩
    · exact ⟨_, List.forall_mem_singleton.mpr ⟨sRr, _, Or.inl rfl, rfl, rfl⟩, (hflag false).trans (.put _ _)⟩
    · exact ⟨[], fun _ hg => absurd hg List.not_mem_nil, .same _⟩
  obtain ⟨gs, hbare, hl⟩ := hleaves
  exact h.leaves trivial (by simp) (h.near.says_setLocalBusy busy) hl hbare

theorem Smooth.t2Expired (h : Smooth w₀ w n) : ∃ n', Smooth w₀ (w.step (.call .t2Expired)) n' := by
  obtain ⟨address, kind, -, hkind, hl⟩ := @t2Expired_leaves w.near.station w.near.ctx
  refine h.leaves trivial (by simp) (h.near.says_t2Expired h.talking.near) hl ?_
  exact List.forall_mem_singleton.mpr ⟨kind, _, hkind, rfl, rfl⟩

/-- Some frames of the far station arrive. -/
theorem Smooth.deliver (h : Smooth w₀ w n) (k : Nat) :
    ∃ n', Smooth w₀ (w.step (.deliver k)) n' := by
  obtain ⟨heard, coming, hfar⟩ := h.toFar
  obtain ⟨heard', coming', hnear⟩ := h.toNear
  have hms := List.forall₂_take k h.far.out
  have hnr : ∀ m ∈ n.far.out.take k, m.nr?.isSome = true := fun m hm =>
    h.talking.farOut m (List.mem_of_mem_take hm)
  have hgiven : payloads w.near.ctx.trace = payloads w₀.near.ctx.trace ++ received w.near.ctx.trace := h.nearGiven
  have hheard : received w.near.ctx.trace = carried heard' :=
    List.append_cancel_left (hgiven.symm.trans hnear.given)
  have hway : (w.far.out.take k).map Flight.wire = (coming'.take k).map (Frame.wire w.far.station.crc) := by
    rw [List.map_take, List.map_take]
    exact congrArg (List.take k) hnear.way
  obtain ⟨-, hcoming⟩ := inTurn_append.mp hnear.inTurn
  rw [Nat.zero_add, ← hheard, ← List.take_append_drop k coming'] at hcoming
  have hturn : InTurn w.near.station.config.address (received w.near.ctx.trace).length (coming'.take k) :=
    (inTurn_append.mp hcoming).1
  have hfits : ∀ f ∈ coming'.take k, f.info.length + 4 ≤ w.near.station.rxCapacity ∧ f.info.length ≤ 65535 := by
    intro f hf
    have hlen : f.info.length ≤ receivable w.near.station := by
      rcases hnear.inTurn.info (List.mem_append_right _ (List.mem_of_mem_take hf)) with hnone | hsome
      · rw [hnone]
        exact Nat.zero_le _
      · rw [hnear.accepted] at hsome
        exact h.far.reflects.bounded _ hsome
    exact ⟨(Nat.add_le_add_right hlen 4).trans (receivable_room _), hlen.trans (Nat.min_le_right _ _)⟩
  obtain ⟨x', hx', hindex, hpending, hspoken, hchats, htakes⟩ := h.near.reflects.takes_all
    h.matched.nearPassive rfl h.matched.crc.symm rfl hms hway hturn hfits h.near.index h.near.pending
    (List.take_append_drop k n.far.out).symm h.inv h.talking
  obtain ⟨hinv, htalking⟩ := h.talking.chats h.inv hchats
  have hread : dataIn w.near.station w.near.ctx ((w.far.out.take k).flatMap fun f => f.wire.octets) =
      rxBytes w.near.station w.near.ctx ((w.far.out.take k).flatMap fun f => f.wire.octets) := by
    rw [dataIn, retransmitIfPending, hpending, if_neg Bool.false_ne_true]
  obtain ⟨hctx, hstation⟩ := receive_eq w.near (w.far.out.take k)
  rw [hread] at hctx
  have hstands : Stands w.far.station.config.address (receivable w.far.station)
      (w.near.receive (w.far.out.take k)) x' := by
    have hlistened := h.near.hear_all hms hnr
    obtain ⟨number, hhear⟩ := foldl_hear w.near (w.far.out.take k)
    rw [Endpoint.receive, hread]
    rw [hhear] at hlistened ⊢
    exact hlistened.become hx' hindex hpending hspoken
  obtain ⟨gs, hwires, hbare⟩ := htakes.said
  have hreceived : received (w.near.receive (w.far.out.take k)).ctx.trace =
      received w.near.ctx.trace ++ carried (coming'.take k) := by
    rw [hctx]
    exact htakes.received
  have hnearGiven : Given (payloads w₀.near.ctx.trace) (w.near.receive (w.far.out.take k)).ctx := by
    obtain ⟨tw, htw⟩ := Option.isSome_iff_exists.mp h.matched.nearWindow
    have hwindow := h.near.reflects.inv
    rw [windowOf_eq htw] at hwindow
    rw [hctx, ← hread]
    refine h.nearGiven.dataIn h.matched.nearPassive h.matched.nearData h.matched.crc.symm hms hnr h.near.index
      fun w hw => ?_
    obtain rfl : tw = w := Option.some.inj (htw.symm.trans hw)
    exact hwindow
  have hnearGiven' : payloads (w.near.receive (w.far.out.take k)).ctx.trace =
      payloads w₀.near.ctx.trace ++ received (w.near.receive (w.far.out.take k)).ctx.trace := hnearGiven
  have hfarStands : Stands w.near.station.config.address (receivable w.near.station)
      { w.far with out := w.far.out.drop k } { n.far with out := n.far.out.drop k } :=
    ⟨{ h.far.reflects with }, h.far.index, h.far.pending, h.far.issued, h.far.heard,
      List.forall₂_drop k h.far.out⟩
  rw [← hstation] at hfarStands
  refine ⟨⟨x', { n.far with out := n.far.out.drop k }⟩, hstands, hfarStands, hinv, htalking, h.matched.step _,
    hnearGiven, h.farGiven, ?_, ?_⟩
  · have hgrows : wires (w.near.receive (w.far.out.take k)).ctx.trace =
        wires w.near.ctx.trace ++ gs.map (Frame.wire w.near.station.crc) := by
      rw [hctx]
      exact hwires
    have hgrown := hfar.grow hstation hgrows (receive_wires (by rw [hread]; exact hwires)) (inTurn_bare hbare)
      (by rw [hctx, htakes.sent, carried_bare hbare, List.append_nil])
    exact ⟨heard, coming ++ gs, hgrown.line, hgrown.way, hgrown.inTurn, hgrown.accepted, hgrown.given⟩
  · have hsplit : heard' ++ coming' = heard' ++ coming'.take k ++ coming'.drop k := by
      rw [List.append_assoc, List.take_append_drop]
    refine ⟨heard' ++ coming'.take k, coming'.drop k, ?_, drop_wires hnear.way k, ?_, ?_, ?_⟩
    · rw [← hsplit]
      exact hnear.line
    · rw [← hsplit]
      show InTurn (w.near.receive (w.far.out.take k)).station.config.address 0 _
      rw [hstation]
      exact hnear.inTurn
    · rw [← hsplit]
      exact hnear.accepted
    · rw [carried_append, ← hheard, ← hreceived]
      exact hnearGiven'

theorem Smooth.step (h : Smooth w₀ w n) {m : Move} (hm : Untroubled w m) : ∃ n', Smooth w₀ (w.step m) n' := by
  cases m with
  | call c =>
      cases c with
      | transmitI data => exact h.transmitI hm.1 hm.2
      | setLocalBusy busy => exact h.setLocalBusy busy
      | t2Expired => exact h.t2Expired
      | _ => exact hm.elim
  | lose i => exact hm.elim
  | deliver k => exact h.deliver k

/-- What keeps to a bound keeps to a larger one. -/
theorem Stands.mono {peer : UInt8} {bound bound' : Nat} {e : Endpoint} {x : Peer (List UInt8)}
    (h : Stands peer bound e x) (hle : bound ≤ bound') : Stands peer bound' e x :=
  ⟨{ h.reflects with bounded := fun payload hmem => (h.reflects.bounded payload hmem).trans hle }, h.index, h.pending,
    h.issued, h.heard, h.out⟩

theorem Paired.smooth (h : Paired w) : ∃ n, Smooth w w n := by
  obtain ⟨n, hn⟩ := @Paired.inSession 0 w h
  have hthrifty {v : World} (hopen : Established v) : Thrifty v v [] [] := by
    refine ⟨(List.append_nil _).symm, ?_, trivial, ?_, (List.append_nil _).symm⟩
    · rw [hopen.nearFresh.out]
      rfl
    · rw [hopen.nearFresh.session.1]
      rfl
  exact ⟨n, hn.near.mono (Nat.zero_le _), hn.far.mono (Nat.zero_le _), hn.inv, hn.talking, h.matched,
    hn.nearHolds.given, hn.farHolds.given, ⟨[], [], hthrifty h.established⟩, [], [], hthrifty h.swap.established⟩

end Smooth

/-- Two stations have just connected, nothing is lost, T1 does not run out, and every payload that is accepted can be
received. Then every payload is put on the line just once, whatever has arrived has been given to the application, and
nothing else is sent but RR and RNR without P and F, in either direction. -/
theorem session_thrifty {w₀ w : World} (hstart : Paired w₀) (hrun : Run Untroubled w₀ w) :
    (∃ heard coming, Thrifty w₀ w heard coming) ∧ ∃ heard coming, Thrifty w₀.swap w.swap heard coming := by
  obtain ⟨n, hn⟩ := hrun.invariant_from (P := fun v w => ∃ n, Smooth v w n) hstart.smooth
    (fun _ _ ⟨n, hn⟩ => ⟨n.swap, hn.swap⟩) fun _ _ _ ⟨_, hn⟩ hm => hn.step hm
  exact ⟨hn.toFar, hn.toNear⟩

/-- Two payloads are sent, and the first arrives. -/
theorem session_thrifty_mock :
    let w := ((mockWorld.accept [0x11]).accept [0x22, 0x23]).stepFar (.deliver 1)
    payloads w.far.ctx.trace = [[0x11]] ∧ (∃ heard coming, Thrifty mockWorld w heard coming) ∧
      ∃ heard coming, Thrifty mockWorld.swap w.swap heard coming := by
  intro w
  have hrun : Run Untroubled mockWorld w :=
    .far (.deliver 1) (.near _ (.near _ .start ⟨Or.inl rfl, fun _ => by decide⟩) ⟨Or.inl rfl, fun _ => by decide⟩) trivial
  exact ⟨by decide +kernel, session_thrifty mockWorld_paired hrun⟩

end AtcHdlc
