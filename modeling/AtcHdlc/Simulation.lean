import AtcHdlc.Peers
import AtcHdlc.Timers

/-! Two stations as a connection of two peers. Every move of a station (a received chunk with the
retransmission at its end, a call, an expiry) is what its peer may do, so that what holds along the runs of
two peers holds along the runs of two stations. -/

namespace AtcHdlc

open DataLink

section Retransmission

variable {st : Station} {w : TxWindow}

/-- The I-frame that repeats the payload `k`. -/
def repeated (w : TxWindow) (s : Ctx) (k : Nat) : Frame :=
  ⟨s.peerAddress, iCtrl k s.vr false, readSlot w s (k % w.slotCount)⟩

/-- The loop puts the payloads `k`, `k + 1`, ... on the line, as long as V(S) is not at its end. -/
theorem retransmitLoop_linkView {k n fuel slotIdx endVs : Nat} {s : Ctx} (hvs : s.vs = k % mod8)
    (hend : endVs = n % mod8) (hle : k ≤ n) (hlt : n < k + mod8) (hfuel : n ≤ k + fuel)
    (hslot : slotIdx = k % w.slotCount) :
    linkView (retransmitLoop st w endVs fuel slotIdx s) =
      (linkView s).sayAll st.crc ((List.range' k (n - k)).map (repeated w s)) := by
  induction fuel generalizing k slotIdx s with
  | zero =>
      have hzero : n - k = 0 := by omega
      rw [hzero]
      rfl
  | succ fuel ih =>
      simp only [retransmitLoop, frameSend_octets]
      by_cases hdone : s.vs = endVs
      · have hsame : k = n := by
          rw [hvs, hend] at hdone
          exact Serial.eq_of_mod_eq (Nat.le_refl k) (by simp [mod8]) hle hlt hdone
        rw [if_pos hdone, hsame, Nat.sub_self]
        rfl
      · have hne : k ≠ n := by
          rintro rfl
          exact hdone (hvs.trans hend.symm)
        have hcount : n - k = n - (k + 1) + 1 := by omega
        have hfirst : (⟨s.peerAddress, iCtrl s.vs s.vr false, readSlot w s slotIdx⟩ : Frame) =
            repeated w s k := by
          have hctrl : iCtrl s.vs s.vr false = iCtrl k s.vr false := by
            simp only [iCtrl, and_seven, hvs, mod8, Nat.mod_mod]
          rw [repeated, hctrl, hslot]
        have hlogged : linkView (s.log (.slotRead slotIdx)) = linkView s :=
          @linkView_logs s [.slotRead slotIdx] rfl rfl (by simp [Plain])
        generalize hf : (⟨(s.log (.slotRead slotIdx)).peerAddress,
          iCtrl (s.log (.slotRead slotIdx)).vs (s.log (.slotRead slotIdx)).vr false,
          readSlot w (s.log (.slotRead slotIdx)) slotIdx⟩ : Frame) = f
        have hf : f = repeated w s k := hf.symm.trans hfirst
        have hsent : linkView { (s.log (.slotRead slotIdx)).put st f with
            vs := (((s.log (.slotRead slotIdx)).put st f).vs + 1) % mod8 } = (linkView s).say st.crc f := by
          rw [← hlogged]
          exact linkView_put (s.log (.slotRead slotIdx)) f
        have hnext : (s.vs + 1) % mod8 = (k + 1) % mod8 := by
          rw [hvs, Nat.mod_add_mod]
        have hslot' : (slotIdx + 1) % w.slotCount = (k + 1) % w.slotCount := by
          rw [hslot, Nat.mod_add_mod]
        rw [if_neg hdone, hcount, List.range'_succ, List.map_cons]
        refine (ih hnext (by omega) (by omega) (by omega) hslot').trans ?_
        rw [hsent, hf]
        rfl

/-- The number of payloads from a number of the window on, and the slot of the first, as the code finds
them. -/
theorem WindowInv.slotIdx_eq {s : Ctx} (h : WindowInv w s) {k : Nat} (hfrom : s.retransmitFrom = k % mod8)
    (hle : k ≤ (session s.trace).sent.length) (hwindow : (session s.trace).sent.length ≤ k + w.slotCount) :
    u8 (((s.txNextSlot : Int) + w.slotCount -
      u8 (((s.vs : Int) - s.retransmitFrom + mod8).tmod mod8)).tmod w.slotCount) = k % w.slotCount := by
  have hcount := w.slotCount_le
  have hpos := w.slotCount_pos
  have hout : u8 (((s.vs : Int) - s.retransmitFrom + mod8).tmod mod8) =
      (session s.trace).sent.length - k := by
    have hnonneg : (0 : Int) ≤ (s.vs : Int) - s.retransmitFrom + mod8 := by
      simp only [hfrom, mod8] at *
      omega
    rw [Int.tmod_eq_emod_of_nonneg hnonneg]
    simp only [u8, h.vs, hfrom, mod8] at *
    omega
  rw [hout, h.cursor]
  generalize (session s.trace).sent.length = n at *
  have hnonneg : (0 : Int) ≤ (n % w.slotCount : Nat) + w.slotCount - (n - k : Nat) := by omega
  have hmod : ((n % w.slotCount : Nat) + w.slotCount - (n - k : Nat) : Int).tmod w.slotCount =
      ((n % w.slotCount + w.slotCount - (n - k)) % w.slotCount : Nat) := by
    rw [Int.tmod_eq_emod_of_nonneg hnonneg]
    push_cast [show n - k ≤ n % w.slotCount + w.slotCount by omega]
    rfl
  have hsame : (n % w.slotCount + w.slotCount - (n - k)) % w.slotCount = k % w.slotCount := by
    have hmodEq : n % w.slotCount + w.slotCount - (n - k) + (n - k) ≡ k + (n - k) [MOD w.slotCount] := by
      have hleft : n % w.slotCount + w.slotCount - (n - k) + (n - k) = n % w.slotCount + w.slotCount := by
        omega
      have hright : k + (n - k) = n := by omega
      rw [hleft, hright]
      exact (Nat.add_mod_right _ _).trans (Nat.mod_mod _ _)
    exact Nat.ModEq.add_right_cancel' _ hmodEq
  have hlt := Nat.mod_lt k hpos
  rw [hmod, hsame, u8_natCast (by omega)]

/-- The retransmission puts the payloads from the armed number on on the line, and changes nothing else
that is seen of the station. -/
theorem retransmitOutstanding_linkView {s : Ctx} (h : WindowInv w s) {k : Nat}
    (hfrom : s.retransmitFrom = k % mod8) (hle : k ≤ (session s.trace).sent.length)
    (hwindow : (session s.trace).sent.length ≤ k + w.slotCount) :
    linkView (retransmitOutstanding st w s) = (linkView s).sayAll st.crc
      ((List.range' k ((session s.trace).sent.length - k)).map (repeated w s)) := by
  have hslot := h.slotIdx_eq hfrom hle hwindow
  have hcount := w.slotCount_le
  unfold retransmitOutstanding
  extract_lets t endVs outstanding slotIdx u v
  have hloop := @retransmitLoop_linkView st w k (session s.trace).sent.length 8 slotIdx endVs u hfrom h.vs
    hle (by simp only [mod8]; omega) (by omega) hslot
  rw [linkView_t1Start]
  exact hloop

end Retransmission

section Armed

variable {st : Station} {peer : UInt8} {bound : Nat} {s : Ctx} {x x' : Peer (List UInt8)} {R : Rules}

/-- The slots of the open frames hold what was accepted under their numbers. -/
def Kept (w : TxWindow) (s : Ctx) : Prop :=
  ∀ k (hk : k < (session s.trace).sent.length), (session s.trace).acked ≤ k →
    readSlot w s (k % w.slotCount) = (session s.trace).sent[k]

/-- An armed retransmission begins at a number of the window, or of the one before. -/
def ArmedIn (st : Station) (s : Ctx) (x : Peer (List UInt8)) : Prop :=
  s.retransmitPending = true → (∃ w, st.txWindow = some w) ∧
    ∃ k, k < x.sent.length ∧ x.sent.length ≤ k + x.window ∧ s.retransmitFrom = k % mod8

theorem Reflects.va (h : Reflects st peer bound s x) : s.va = x.acked % mod8 := by
  rw [h.acked]
  exact h.inv.va

theorem Reflects.vs (h : Reflects st peer bound s x) : s.vs = x.sent.length % mod8 := by
  rw [h.sent_length]
  exact h.inv.vs

theorem Reflects.acked_le (h : Reflects st peer bound s x) : x.acked ≤ x.sent.length := by
  rw [h.acked, h.sent_length]
  exact h.inv.acked_le

theorem Reflects.sent_le (h : Reflects st peer bound s x) : x.sent.length ≤ x.acked + x.window := by
  rw [h.acked, h.sent_length, h.window]
  exact h.inv.sent_le

/-- The payloads and the window after a frame that does not begin a session. -/
theorem Reflects.dispatch_sent (hp : st.platform.Passive) (h : Reflects st peer bound s x) (f : Received)
    (h' : Reflects st peer bound (f.dispatch st s) x') (hresets : resets s f.ctrl = false) :
    x'.sent = x.sent := by
  have hsession := session_dispatch hp h.windowed h.inv f
  rw [hresets, if_neg (by decide)] at hsession
  rw [h'.sent, h.sent, hsession]
  split_ifs <;> rfl

/-- A frame that begins no session arms the retransmission from V(A) on, or leaves it as it is. -/
theorem ArmedIn.dispatch (hp : st.platform.Passive) (ha : ArmedIn st s x) (h : Reflects st peer bound s x)
    (f : Received) (h' : Reflects st peer bound (f.dispatch st s) x')
    (hresets : s.retransmitPending = true → resets s f.ctrl = false) : ArmedIn st (f.dispatch st s) x' := by
  intro hpending
  have hview := dispatchFrame_ackView hp h.windowed f
  by_cases hreset : resets s f.ctrl = true
  · simp only [AckView.next, if_pos hreset] at hview
    have hbefore : s.retransmitPending = true := (congrArg AckView.retransmitPending hview).symm.trans hpending
    exact absurd (hreset.symm.trans (hresets hbefore)) (by decide)
  · simp only [AckView.next, if_neg hreset] at hview
    have hsent := h.dispatch_sent hp f h' (by simpa using hreset)
    have hwindow : x'.window = x.window := h'.window.trans h.window.symm
    have hfrom : (f.dispatch st s).retransmitFrom =
        if arms s f.address f.ctrl then ctrlNr f.ctrl else s.retransmitFrom :=
      congrArg AckView.retransmitFrom hview
    have hor : (s.retransmitPending || arms s f.address f.ctrl) = true :=
      (congrArg AckView.retransmitPending hview).symm.trans hpending
    by_cases harms : arms s f.address f.ctrl = true
    · rw [if_pos harms] at hfrom
      have hva : (f.dispatch st s).va = if acks s f.ctrl then ctrlNr f.ctrl else s.va :=
        congrArg AckView.va hview
      have hvs : (f.dispatch st s).vs = s.vs := congrArg AckView.vs hview
      simp only [arms, Bool.and_eq_true, decide_eq_true_eq] at harms
      obtain ⟨⟨⟨⟨hstate, hs⟩, hvalid⟩, hne⟩, -⟩ := harms
      have hu : isUframe f.ctrl = false := by
        rcases ctrl_cases f.ctrl with ⟨-, -, hu⟩ | ⟨-, -, hu⟩ | ⟨-, hs', -⟩
        · exact hu
        · exact hu
        · exact absurd (hs.symm.trans hs') (by decide)
      have hnr : (f.dispatch st s).va = ctrlNr f.ctrl := by
        rw [hva]
        split_ifs with hacks
        · rfl
        · by_contra hva
          exact hacks (by simp [acks, hstate, hu, hvalid, Ne.symm hva])
      have hmoved : (f.dispatch st s).va ≠ (f.dispatch st s).vs := by
        rw [hnr, hvs]
        exact hne
      have hacked := h'.acked_le
      have hsome : ∃ w, st.txWindow = some w := by
        cases hw : st.txWindow with
        | none =>
            obtain ⟨hva0, hvs0⟩ := h'.windowed hw
            exact absurd (hva0.trans hvs0.symm) hmoved
        | some w => exact ⟨w, rfl⟩
      have hlt : x'.acked ≠ x'.sent.length := by
        intro heq
        rw [h'.va, h'.vs, heq] at hmoved
        exact hmoved rfl
      refine ⟨hsome, x'.acked, by omega, h'.sent_le, ?_⟩
      rw [hfrom, ← hnr]
      exact h'.va
    · rw [if_neg harms] at hfrom
      have hbefore : s.retransmitPending = true := by simpa [harms] using hor
      obtain ⟨hsome, k, hk, hle, hfrom'⟩ := ha hbefore
      refine ⟨hsome, k, ?_, ?_, hfrom.trans hfrom'⟩
      · rw [hsent]
        exact hk
      · rw [hsent, hwindow]
        exact hle

/-- A frame that arms the retransmission leaves the session open. -/
theorem pending_connected (hp : st.platform.Passive) (h : Reflects st peer bound s x)
    (hbefore : s.retransmitPending = false) (f : Received)
    (hafter : (f.dispatch st s).retransmitPending = true) :
    (f.dispatch st s).currentState = .connected := by
  have hview := dispatchFrame_ackView hp h.windowed f
  by_cases hreset : resets s f.ctrl = true
  · simp only [AckView.next, if_pos hreset] at hview
    have hpending : (f.dispatch st s).retransmitPending = s.retransmitPending :=
      congrArg AckView.retransmitPending hview
    exact absurd (hafter.symm.trans (hpending.trans hbefore)) (by decide)
  · simp only [AckView.next, if_neg hreset] at hview
    have hpending : (f.dispatch st s).retransmitPending = (s.retransmitPending || arms s f.address f.ctrl) :=
      congrArg AckView.retransmitPending hview
    rw [hbefore, Bool.false_or] at hpending
    have harms := hpending.symm.trans hafter
    simp only [arms, Bool.and_eq_true, decide_eq_true_eq] at harms
    obtain ⟨⟨⟨⟨hstate, hs⟩, hvalid⟩, -⟩, -⟩ := harms
    have hu : ¬isUframe f.ctrl = true := by
      rcases ctrl_cases f.ctrl with ⟨-, -, hu⟩ | ⟨-, -, hu⟩ | ⟨-, hs', -⟩
      · simp [hu]
      · simp [hu]
      · exact absurd (hs.symm.trans hs') (by decide)
    rw [dispatchFrame_currentState hp]
    simp only [linkAfter, hstate, if_neg hu, if_pos hvalid]

/-- Payloads of the window are said again one after the other. -/
theorem talk_resend {y : Peer (List UInt8)} (hup : x.link = .up) {l : List (Msg (List UInt8))}
    (hl : ∀ m ∈ l, ∃ k payload, m = .data k payload x.got.length ∧ k < x.sent.length ∧
      x.sent.length ≤ k + x.window ∧ (R.exact → x.acked ≤ k → x.sent[k]? = some payload)) :
    Relation.ReflTransGen (Talk R) ⟨x, y⟩ ⟨{ x with out := x.out ++ l }, y⟩ := by
  induction l generalizing x with
  | nil =>
      rw [List.append_nil]
  | cons m l ih =>
      obtain ⟨k, payload, rfl, hk, hwindow, hexact⟩ := hl m List.mem_cons_self
      have hrest := ih (x := x.say (.data k payload x.got.length)) hup
        fun m hm => hl m (List.mem_cons_of_mem _ hm)
      have hassoc : (x.say (.data k payload x.got.length)).out ++ l =
          x.out ++ .data k payload x.got.length :: l := List.append_assoc _ _ _
      rw [hassoc] at hrest
      exact .head (.resend k payload hup hk hwindow hexact) hrest

/-- The payload that is repeated is the payload that was sent. -/
theorem Reflects.repeated_info (h : Reflects st peer bound s x) (hkept : Kept (windowOf st) s)
    {k : Nat} (hk : k < x.sent.length) (hopen : x.acked ≤ k) :
    x.sent[k]? = some (heardInfo (repeated (windowOf st) s k).info) := by
  rw [h.sent_length] at hk
  rw [h.acked] at hopen
  have hread := hkept k hk hopen
  rw [h.sent, List.getElem?_map, List.getElem?_eq_getElem hk, repeated, hread]
  rfl

/-- The end of a received chunk: what is armed is said again. -/
theorem Reflects.retransmit (h : Reflects st peer bound s x) (ha : ArmedIn st s x)
    (hup : s.retransmitPending = true → x.link = .up)
    (hexact : R.exact → Kept (windowOf st) s) :
    ∃ x', Reflects st peer bound (retransmitIfPending st s) x' ∧
      (retransmitIfPending st s).retransmitPending = false ∧
      (retransmitIfPending st s).rxIndex = s.rxIndex ∧
      Spoken st peer s (retransmitIfPending st s) x x' ∧
      ∀ y, Relation.ReflTransGen (Talk R) ⟨x, y⟩ ⟨x', y⟩ := by
  have hindex := (@retransmitIfPending_agree st s).rxIndex
  unfold retransmitIfPending at hindex ⊢
  by_cases hpending : s.retransmitPending = true
  · obtain ⟨⟨w, hw⟩, k, hk, hwindow, hfrom⟩ := ha hpending
    have hwindowOf := windowOf_eq hw
    rw [if_pos hpending, hw] at hindex ⊢
    have hinv := h.inv
    rw [hwindowOf] at hinv
    have hlength := h.sent_length
    have hcount : x.window = w.slotCount := h.window.trans (by rw [hwindowOf])
    have hview := @retransmitOutstanding_linkView st w s hinv k hfrom (by omega) (by omega)
    have hface := congrArg LinkView.face hview
    rw [LinkView.face_sayAll, ← hlength] at hface
    have hquiet := @retransmitOutstanding_quiet st w s hinv.vs_lt hinv.from_lt
    have hreflects : Reflects st peer bound (retransmitOutstanding st w s) x :=
      h.quiet hquiet (congrArg (fun v : Face => { v with wires := [] }) hface)
    let again (i : Nat) : Msg (List UInt8) := .data i (heardInfo (repeated w s i).info) x.got.length
    refine ⟨{ x with out := x.out ++ (List.range' k (x.sent.length - k)).map again }, ?_, ?_, ?_,
      ⟨rfl, rfl, (List.range' k (x.sent.length - k)).map (repeated w s), _, ?_, rfl, ?_⟩, ?_⟩
    · exact { hreflects with }
    · exact retransmitLoop_pending _ _ _ _
    · exact hindex
    · rw [← face_wires]
      exact (congrArg Face.wires hface).trans (congrArg (· ++ _) (face_wires s))
    · refine List.forall₂_map_left_iff.mpr (List.forall₂_map_right_iff.mpr (List.forall₂_same.mpr ?_))
      intro i _
      refine ⟨.data i x.got.length h.peerAddress ?_, rfl⟩
      rw [repeated, h.vr]
      simp only [iCtrl, and_seven, mod8, Nat.mod_mod]
    · intro y
      refine talk_resend (hup hpending) fun m hm => ?_
      obtain ⟨i, hi, rfl⟩ := List.mem_map.mp hm
      rw [List.mem_range'_1] at hi
      refine ⟨i, _, rfl, by omega, by omega, fun he hopen => ?_⟩
      have hinfo := h.repeated_info (hexact he) (show i < x.sent.length by omega) hopen
      rw [hwindowOf] at hinfo
      exact hinfo
  · rw [if_neg hpending]
    exact ⟨x, h, by simpa using hpending, rfl, .silent rfl rfl rfl rfl, fun _ => .refl⟩

end Armed

/-- What the octets of a frame that means `m` may lead to, heard or lost for want of room. -/
def Arrives (R : Rules) (x : Peer (List UInt8)) (m : Msg (List UInt8)) (x' : Peer (List UInt8)) : Prop :=
  ∀ (y : Peer (List UInt8)) (rest : List (Msg (List UInt8))), y.out = m :: rest →
    (x.link = .opening → ∀ n, m = .accept n → n = x.commands) →
    (x.link = .opening → ∀ n, m = .refuse n → ∀ n', .setup n' ∉ x.out) →
    (m = .reject → R.lossy) →
    Relation.ReflTransGen (Chat R) ⟨x, y⟩ ⟨x', { y with out := rest }⟩

section Arrives

variable {st : Station} {peer : UInt8} {bound : Nat} {s : Ctx} {x x' : Peer (List UInt8)} {R : Rules}

theorem talk_chat {n n' : Net (List UInt8)} (h : Relation.ReflTransGen (Talk R) n n') :
    Relation.ReflTransGen (Chat R) n n' := h.lift (p := Chat R) id fun _ _ htalk => Or.inl htalk

theorem chat_step {n n' : Net (List UInt8)} (h : Relation.ReflTransGen (Chat R) n n') :
    Relation.ReflTransGen (Step R) n n' :=
  h.lift (p := Step R) id fun _ _ hchat => hchat.imp Act.talk Act.talk

theorem Means.numbered {my p : UInt8} {f : Frame} {n : Nat} {m : Msg (List UInt8)} (h : Means my p f n m)
    (hnr : m.nr?.isSome = true) : isUframe f.ctrl = false := by
  cases h with
  | data k r haddr hctrl =>
      have hi := (iCtrl_fields k r false).1
      rw [← hctrl] at hi
      rcases ctrl_cases f.ctrl with ⟨-, -, hu⟩ | ⟨-, -, hu⟩ | ⟨hi', -, -⟩
      · exact hu
      · exact hu
      · exact absurd (hi.symm.trans hi') (by decide)
  | ack kind r poll haddr hctrl hinfo =>
      have hs := (sCtrl_fields kind r poll).1
      rw [← hctrl] at hs
      rcases ctrl_cases f.ctrl with ⟨-, -, hu⟩ | ⟨-, -, hu⟩ | ⟨-, hs', -⟩
      · exact hu
      · exact hu
      · exact absurd (hs.symm.trans hs') (by decide)
  | setup | release | accept | refuse | reject => exact absurd hnr (by simp [Msg.nr?])

/-- The filter lets every frame of the partner pass, and only payloads and rejections may lack room. -/
theorem Means.accepted {my p : UInt8} {f : Frame} {n : Nat} {m : Msg (List UInt8)} (h : Means my p f n m)
    (st : Station) (x : Peer (List UInt8)) :
    Accepted p my f.address ∧
      (f.info.length + 4 ≤ st.rxCapacity ∨ m.data?.isSome = true ∧ listen x m = x ∨
        m = .reject ∧ listen x m = x) := by
  have hcap := st.rxCapacity_frame
  cases h with
  | data k r haddr hctrl => exact ⟨Or.inl haddr, Or.inr (Or.inl ⟨rfl, rfl⟩)⟩
  | ack kind r poll haddr hctrl hinfo =>
      refine ⟨?_, Or.inl (by rw [hinfo]; exact hcap)⟩
      rcases haddr with haddr | haddr
      · exact Or.inr (Or.inl haddr)
      · exact Or.inl haddr
  | setup heq | release heq =>
      rw [heq]
      exact ⟨Or.inl rfl, Or.inl hcap⟩
  | accept heq | refuse heq =>
      rw [heq]
      exact ⟨Or.inr (Or.inl rfl), Or.inl hcap⟩
  | reject haddr hctrl hinfo => exact ⟨Or.inr (Or.inl haddr), Or.inr (Or.inr ⟨rfl, rfl⟩)⟩

/-- The octets of a frame of the partner, read between two frames. -/
theorem Reflects.arrive (hp : st.platform.Passive) (hR : R.modulus = mod8) (h : Reflects st peer bound s x)
    (ha : ArmedIn st s x) (hindex : s.rxIndex = 0) {f : Frame} {n : Nat} {m : Msg (List UInt8)}
    (hm : Means peer st.config.address f n m)
    (hkeep : s.retransmitPending = true → m.nr?.isSome = true) :
    ∃ x', Reflects st peer bound (rxBytes st s (f.octets st.crc)) x' ∧
      ArmedIn st (rxBytes st s (f.octets st.crc)) x' ∧ (rxBytes st s (f.octets st.crc)).rxIndex = 0 ∧
      (s.retransmitPending = false → (rxBytes st s (f.octets st.crc)).retransmitPending = true →
        x'.link = .up) ∧
      Spoken st peer s (rxBytes st s (f.octets st.crc)) (listen x m) x' ∧ Arrives R x m x' := by
  obtain ⟨t, hread⟩ := @rxBytes_octets st s hindex f
  have hquiet (u v : Ctx) : Quiet u (u.withParser v) := .of_trace rfl rfl rfl rfl rfl rfl rfl
  have hbefore : Reflects st peer bound (s.withParser t) x := h.quiet (hquiet s t) rfl
  obtain ⟨haddr, hroom⟩ := hm.accepted st x
  rw [h.myAddress, h.peerAddress] at hread
  rw [hread]
  by_cases hfits : f.info.length + 4 ≤ st.rxCapacity
  · rw [if_pos ⟨haddr, hfits⟩]
    obtain ⟨x', hx', hspoken, hhears⟩ := simulates hp hR hbefore hm
    have harmed : ArmedIn st (f.arriving.dispatch st (s.withParser t)) x' := by
      refine ArmedIn.dispatch hp (show ArmedIn st (s.withParser t) x from ha) hbefore f.arriving hx' fun hpending => ?_
      have hu : isUframe f.arriving.ctrl = false := hm.numbered (hkeep hpending)
      simp [resets, hu]
    refine ⟨x', hx'.quiet (hquiet _ (rxRestart (f.arriving.dispatch st (s.withParser t)) .addr)) rfl, harmed,
      rfl, fun hclear hpending => ?_, ⟨hspoken.commands, hspoken.heard, hspoken.said⟩, ?_⟩
    · have hstate := pending_connected hp hbefore hclear f.arriving hpending
      exact hx'.link.trans (by rw [hstate, linkOf])
    · exact fun y rest hout haccept hrefuse _ => talk_chat (hhears y rest hout haccept hrefuse)
  · rw [if_neg (fun hand => hfits hand.2)]
    have hlost : (m.data?.isSome = true ∨ m = .reject) ∧ listen x m = x := by
      rcases hroom with hroom | ⟨hdata, hlisten⟩ | ⟨hreject, hlisten⟩
      · exact absurd hroom hfits
      · exact ⟨Or.inl hdata, hlisten⟩
      · exact ⟨Or.inr hreject, hlisten⟩
    refine ⟨x, hbefore.quiet (hquiet _ (rxRestart (s.withParser t) .addr)) rfl, ha, rfl,
      fun hclear hpending => ?_, ?_, ?_⟩
    · exact absurd (hclear.symm.trans hpending) (by decide)
    · rw [hlost.2]
      exact .silent rfl rfl rfl rfl
    · intro y rest hout _ _ hlossy
      refine .single (Or.inr (.lose [] rest m hout ?_))
      rcases hlost.1 with hdata | hreject
      · exact Or.inr hdata
      · exact Or.inl (hlossy hreject)

end Arrives

/-! ### Stations with their channels -/

/-- A frame on its way from a station, and the message it is. -/
def Carries (st : Station) (peer : UInt8) (flight : Flight) (m : Msg (List UInt8)) : Prop :=
  ∃ f : Frame, flight.wire = f.wire st.crc ∧ Means st.config.address peer f flight.number m

/-- A station with its channel, between two calls, and the peer it stands for. -/
structure Stands (peer : UInt8) (bound : Nat) (e : Endpoint) (x : Peer (List UInt8)) : Prop where
  reflects : Reflects e.station peer bound e.ctx x
  index : e.ctx.rxIndex = 0
  pending : e.ctx.retransmitPending = false
  issued : e.issued = x.commands
  heard : e.heard = x.heard
  out : List.Forall₂ (Carries e.station peer) e.out x.out

theorem Means.isCommand_eq {my p : UInt8} {f : Frame} {n : Nat} {m : Msg (List UInt8)} (h : Means my p f n m) :
    isCommand f.ctrl = m.command?.isSome ∧ ∀ k, m.command? = some k → k = n := by
  have hnot (hu : isUframe f.ctrl = false) : isCommand f.ctrl = false := by
    have hsabm : isUframe (uCtrl uSabm true) = true := by decide
    have hdisc : isUframe (uCtrl uDisc true) = true := by decide
    rw [isCommand, Bool.or_eq_false_iff, beq_eq_false_iff_ne, beq_eq_false_iff_ne]
    constructor
    · rintro heq
      rw [heq, hsabm] at hu
      exact absurd hu (by decide)
    · rintro heq
      rw [heq, hdisc] at hu
      exact absurd hu (by decide)
  have hnumbered := h.numbered
  cases h with
  | data | ack => exact ⟨hnot (hnumbered rfl), fun k hk => absurd hk (by simp [Msg.command?])⟩
  | setup heq | release heq =>
      rw [heq]
      exact ⟨rfl, fun k hk => (Option.some_inj.mp hk).symm⟩
  | accept heq | refuse heq =>
      rw [heq]
      exact ⟨rfl, fun k hk => absurd hk (by simp [Msg.command?])⟩
  | reject haddr hctrl hinfo =>
      rw [hctrl]
      exact ⟨rfl, fun k hk => absurd hk (by simp [Msg.command?])⟩

theorem said_not_command {my p : UInt8} {n : Nat} {fs : List Frame} {ms : List (Msg (List UInt8))}
    (h : List.Forall₂ (fun f m => Means my p f n m ∧ m.command? = none) fs ms) :
    ∀ f ∈ fs, isCommand f.ctrl = false := by
  induction h with
  | nil => exact fun f hf => absurd hf List.not_mem_nil
  | cons hm _ ih =>
      intro f hf
      rcases List.mem_cons.mp hf with rfl | hf
      · rw [hm.1.isCommand_eq.1, hm.2]
        rfl
      · exact ih f hf

namespace Endpoint

theorem emit_of_not {e : Endpoint} {f : Wire} (h : isCommand f.ctrl = false) :
    e.emit f = { e with out := e.out ++ [⟨f, e.heard⟩] } := by
  simp [emit, h]

theorem foldl_emit {e : Endpoint} {l : List Wire} (h : ∀ f ∈ l, isCommand f.ctrl = false) :
    l.foldl emit e = { e with out := e.out ++ l.map fun f => ⟨f, e.heard⟩ } := by
  induction l generalizing e with
  | nil => simp
  | cons f l ih =>
      rw [List.foldl_cons, emit_of_not (h f List.mem_cons_self),
        ih fun f' hf' => h f' (List.mem_cons_of_mem _ hf')]
      simp

end Endpoint

section Stands

variable {peer : UInt8} {bound : Nat} {e : Endpoint} {x x' : Peer (List UInt8)}

/-- What a call that gives no command leaves. -/
theorem Stands.become (h : Stands peer bound e x) {s : Ctx} (hreflects : Reflects e.station peer bound s x')
    (hindex : s.rxIndex = 0) (hpending : s.retransmitPending = false)
    (hspoken : Spoken e.station peer e.ctx s x x') : Stands peer bound (e.become s) x' := by
  obtain ⟨fs, ms, hwires, hout, hmeans⟩ := hspoken.said
  have hnone : ∀ f ∈ fs.map (Frame.wire e.station.crc), isCommand f.ctrl = false := by
    intro f hf
    obtain ⟨g, hg, rfl⟩ := List.mem_map.mp hf
    exact said_not_command hmeans g hg
  have hbecome : e.become s = { e with
      ctx := s
      out := e.out ++ (fs.map (Frame.wire e.station.crc)).map fun f => ⟨f, e.heard⟩ } := by
    rw [Endpoint.become, hwires, List.drop_left, Endpoint.foldl_emit hnone]
  rw [hbecome]
  refine ⟨hreflects, hindex, hpending, h.issued.trans hspoken.commands.symm,
    h.heard.trans hspoken.heard.symm, ?_⟩
  rw [hout]
  refine List.rel_append h.out (List.forall₂_map_left_iff.mpr (List.forall₂_map_left_iff.mpr ?_))
  refine hmeans.imp fun f m hfm => ⟨f, rfl, ?_⟩
  have hnumber := hfm.1
  rw [← h.heard] at hnumber
  exact hnumber

/-- What a call that gives a command leaves. -/
theorem Stands.become_command (h : Stands peer bound e x) {s : Ctx} {link : Link}
    {m : Nat → Msg (List UInt8)} {f : Frame}
    (hreflects : Reflects e.station peer bound s (x.command link m)) (hindex : s.rxIndex = 0)
    (hpending : s.retransmitPending = false) (hcommand : isCommand f.ctrl = true)
    (hwires : wires s.trace = wires e.ctx.trace ++ [f.wire e.station.crc])
    (hm : Means e.station.config.address peer f (x.commands + 1) (m (x.commands + 1))) :
    Stands peer bound (e.become s) (x.command link m) := by
  have hbecome : e.become s = { e with
      ctx := s, issued := e.issued + 1, out := e.out ++ [⟨f.wire e.station.crc, e.issued + 1⟩] } := by
    have hwire : isCommand (f.wire e.station.crc).ctrl = true := hcommand
    rw [Endpoint.become, hwires, List.drop_left, List.foldl_cons, List.foldl_nil, Endpoint.emit, if_pos hwire]
  rw [hbecome]
  refine ⟨hreflects, hindex, hpending, congrArg (· + 1) h.issued, h.heard, ?_⟩
  refine List.rel_append h.out (.cons ⟨f, rfl, ?_⟩ .nil)
  rw [h.issued]
  exact hm

theorem Stands.hear (h : Stands peer bound e x) {st : Station} {p : UInt8} {flight : Flight}
    {m : Msg (List UInt8)} (hm : Carries st p flight m) : Stands peer bound (e.hear flight) (listen x m) := by
  obtain ⟨f, hwire, hmeans⟩ := hm
  obtain ⟨hcommand, hnumber⟩ := hmeans.isCommand_eq
  have hctrl : isCommand flight.wire.ctrl = m.command?.isSome := by
    rw [hwire]
    exact hcommand
  unfold Endpoint.hear listen
  rw [hctrl]
  cases hk : m.command? with
  | none => exact h
  | some k => exact ⟨{ h.reflects with }, h.index, h.pending, h.issued, (hnumber k hk).symm, h.out⟩

end Stands

section Arrivals

variable {st : Station} {peer : UInt8} {bound : Nat} {R : Rules}

/-- A chunk of numbered frames. -/
theorem Reflects.arrive_all (hp : st.platform.Passive) (hR : R.modulus = mod8) {sender : Station}
    (hcrc : sender.crc = st.crc) (hpeer : sender.config.address = peer) {flights : List Flight}
    {ms : List (Msg (List UInt8))}
    (hms : List.Forall₂ (Carries sender st.config.address) flights ms)
    (hnr : ∀ m ∈ ms, m.nr?.isSome = true) {s : Ctx} {x : Peer (List UInt8)}
    (h : Reflects st peer bound s x) (ha : ArmedIn st s x) (hindex : s.rxIndex = 0) :
    ∃ x', Reflects st peer bound (rxBytes st s (flights.flatMap fun f => f.wire.octets)) x' ∧
      ArmedIn st (rxBytes st s (flights.flatMap fun f => f.wire.octets)) x' ∧
      (rxBytes st s (flights.flatMap fun f => f.wire.octets)).rxIndex = 0 ∧
      Spoken st peer s (rxBytes st s (flights.flatMap fun f => f.wire.octets)) x x' ∧
      ∀ (y : Peer (List UInt8)) (rest : List (Msg (List UInt8))), y.out = ms ++ rest →
        Relation.ReflTransGen (Chat R) ⟨x, y⟩ ⟨x', { y with out := rest }⟩ := by
  induction hms generalizing s x with
  | nil =>
      refine ⟨x, h, ha, hindex, .silent rfl rfl rfl rfl, fun y rest hout => ?_⟩
      have hsame : { y with out := rest } = y := by
        rw [← List.nil_append rest, ← hout]
      rw [hsame]
  | @cons flight m flights ms hm _ ih =>
      obtain ⟨f, hwire, hmeans⟩ := hm
      have hfirst : m.nr?.isSome = true := hnr m List.mem_cons_self
      rw [hpeer] at hmeans
      obtain ⟨x₁, hx₁, ha₁, hindex₁, -, hspoken₁, harrives⟩ :=
        h.arrive hp hR ha hindex hmeans fun _ => hfirst
      have hlisten : listen x m = x := by
        cases m with
        | data | ack => rfl
        | _ => exact absurd hfirst (by simp [Msg.nr?])
      rw [hlisten] at hspoken₁
      obtain ⟨x', hx', ha', hindex', hspoken', hrest⟩ :=
        ih (fun m hm => hnr m (List.mem_cons_of_mem _ hm)) hx₁ ha₁ hindex₁
      have hoctets : flight.wire.octets = f.octets st.crc := by
        rw [hwire, hcrc]
        rfl
      have hread : rxBytes st s ((flight :: flights).flatMap fun f => f.wire.octets) =
          rxBytes st (rxBytes st s (f.octets st.crc)) (flights.flatMap fun f => f.wire.octets) := by
        rw [List.flatMap_cons, hoctets, rxBytes, List.foldl_append]
        rfl
      rw [hread]
      refine ⟨x', hx', ha', hindex', hspoken₁.trans hspoken', fun y rest hout => ?_⟩
      have hone := harrives y (ms ++ rest) hout
        (fun _ n heq => absurd hfirst (by simp [heq, Msg.nr?]))
        (fun _ n heq => absurd hfirst (by simp [heq, Msg.nr?]))
        (fun heq => absurd hfirst (by simp [heq, Msg.nr?]))
      exact hone.trans (hrest { y with out := ms ++ rest } rest rfl)

end Arrivals

/-- A step that leaves the transmit window and the parser alone, leads to a link state and puts some frames
on the line. -/
structure Leaves (st : Station) (s s' : Ctx) (state : State) (fs : List Frame) : Prop where
  quiet : Quiet s s'
  index : s'.rxIndex = s.rxIndex
  pending : s'.retransmitPending = s.retransmitPending
  face : face s' =
    { face s with currentState := state, wires := (face s).wires ++ fs.map (Frame.wire st.crc) }

section Leaves

variable {st : Station} {peer : UInt8} {bound : Nat} {s t u : Ctx} {x : Peer (List UInt8)}
  {a b : State} {fs gs : List Frame}

theorem Leaves.trans (h : Leaves st s t a fs) (h' : Leaves st t u b gs) : Leaves st s u b (fs ++ gs) := by
  refine ⟨h.quiet.trans h'.quiet, h'.index.trans h.index, h'.pending.trans h.pending, ?_⟩
  rw [h'.face, h.face, List.map_append, ← List.append_assoc]

/-- A change of fields that the peer does not show. -/
theorem Leaves.fields (s t : Ctx) (hq : Quiet s t) (hindex : t.rxIndex = s.rxIndex)
    (hpending : t.retransmitPending = s.retransmitPending) (hview : AtcHdlc.face t = AtcHdlc.face s) :
    Leaves st s t s.currentState [] := by
  refine ⟨hq, hindex, hpending, hview.trans ?_⟩
  exact Face.ext rfl rfl rfl rfl rfl (List.append_nil _).symm

theorem Leaves.put (s : Ctx) (f : Frame) : Leaves st s (s.put st f) s.currentState [f] := by
  refine ⟨.put st s f, rfl, rfl, ?_⟩
  rw [AtcHdlc.face, linkView_put, LinkView.face_say]
  rfl

theorem Leaves.t1Start (s : Ctx) : Leaves st s (t1Start st s) s.currentState [] :=
  .fields s _ (.t1Start st s) rfl rfl (congrArg LinkView.face (linkView_t1Start s))

theorem Leaves.setState (hp : st.platform.Passive) (s : Ctx) {state : State} (event : Event)
    (hne : s.currentState ≠ state) : Leaves st s (setState st s state event) state [] := by
  refine ⟨setState_quiet hp s state event, ?_, setState_pending hp s state event, ?_⟩
  · simp only [AtcHdlc.setState, onEvent_passive hp]
    split_ifs <;> rfl
  · rw [AtcHdlc.face, linkView_setState hp, if_pos (Or.inl hne)]
    exact Face.ext rfl rfl rfl rfl rfl (List.append_nil _).symm

/-- The peer after such a step. -/
theorem Reflects.leaves (h : Reflects st peer bound s x) (hl : Leaves st s t a fs) {x' : Peer (List UInt8)}
    (hx' : x' = { x with link := linkOf a, commands := x'.commands, heard := x'.heard, out := x'.out }) :
    Reflects st peer bound t x' := by
  obtain ⟨os, hos, htrace⟩ := hl.quiet.trace
  have hsession : session t.trace = session s.trace := by rw [htrace, session_neutral _ hos]
  have hface := hl.face
  rw [hx']
  refine ⟨?_, ?_, ?_, ?_, h.inv.quiet hl.quiet, h.window, ?_, ?_, ?_, ?_, ?_⟩
  · have hstate : t.currentState = a := congrArg Face.currentState hface
    rw [hstate]
  · exact (congrArg Face.myAddress hface).trans h.myAddress
  · exact (congrArg Face.peerAddress hface).trans h.peerAddress
  · intro hnone
    rw [hl.quiet.va, hl.quiet.vs]
    exact h.windowed hnone
  · rw [hsession]
    exact h.sent
  · rw [hsession]
    exact h.acked
  · exact h.got.trans (congrArg Face.got hface).symm
  · exact (congrArg Face.vr hface).trans h.vr
  · rw [hsession]
    exact h.bounded

theorem Leaves.wires (hl : Leaves st s t a fs) :
    wires t.trace = wires s.trace ++ fs.map (Frame.wire st.crc) := by
  rw [← face_wires, ← face_wires]
  exact congrArg Face.wires hl.face

/-- `reset_state` begins a session. -/
theorem Reflects.reset (h : Reflects st peer bound s x) : Reflects st peer bound (resetState st s) x.fresh := by
  have hview := @linkView_resetState st s
  have hack := @ackView_resetState st s
  have hsession : session (resetState st s).trace = .start := by
    obtain ⟨os, hos, htrace⟩ := (@resetState_quiet st s).trace
    have hclear : (clearState st s).trace = s.trace ++ [.reset] := by
      rw [clearState, clearSlotLens_eq]
      rfl
    rw [htrace, session_neutral _ hos, hclear, session_reset]
  refine ⟨?_, ?_, ?_, ?_, h.inv.resetState, h.window, ?_, ?_, ?_, ?_, ?_⟩
  · rw [resetState_currentState]
    exact h.link
  · exact (congrArg LinkView.myAddress hview).trans h.myAddress
  · exact (congrArg LinkView.peerAddress hview).trans h.peerAddress
  · exact fun _ => ⟨congrArg AckView.va hack, congrArg AckView.vs hack⟩
  · rw [hsession]
    rfl
  · rw [hsession]
    rfl
  · exact (congrArg LinkView.got hview).symm
  · exact congrArg LinkView.vr hview
  · rw [hsession]
    exact fun payload hmem => absurd hmem List.not_mem_nil

end Leaves

end AtcHdlc
