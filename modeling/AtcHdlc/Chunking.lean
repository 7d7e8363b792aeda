import Mathlib.Data.List.Induction
import AtcHdlc.Congruence

/-! Whether it matters where the received octets are cut into calls. `vis` is what the handling of
frames depends on: all of a context but the T1 flag, the armed retransmission, the transmit checksum and
what is on the line. Frames commute with it (`dispatchFrame_vis`), and the retransmission at the end of a
call changes nothing in it; so two ways of cutting can differ in the T1 flag only. -/

namespace AtcHdlc

def vis (s : Ctx) : Ctx :=
  { s with
    t1Active := false, retransmitPending := false, retransmitFrom := 0, txCrc := 0
    trace := upper s.trace }

theorem upper_upper (l : List Obs) : upper (upper l) = upper l := by
  unfold upper
  rw [List.filter_filter]
  simp only [Bool.and_self]

@[simp] theorem vis_vis (s : Ctx) : vis (vis s) = vis s := by
  simp only [vis, upper_upper]

theorem vis_logs (s : Ctx) (os : List Obs) :
    vis (s.logs os) = { vis s with trace := (vis s).trace ++ upper os } := by
  simp only [vis, Ctx.logs, upper_append]

theorem vis_logs_of_upper_nil (s : Ctx) {os : List Obs} (h : upper os = []) :
    vis (s.logs os) = vis s := by
  rw [vis_logs, h, List.append_nil]

theorem vis_put (st : Station) (s : Ctx) (f : Frame) : vis (s.put st f) = vis s := by
  simp only [vis, Ctx.put, upper_append, upper_obs, List.append_nil]

theorem vis_t1Start {st : Station} (s : Ctx) : vis (t1Start st s) = vis s := by
  have hobs : upper (if st.platform.t1Start then [.t1Start st.config.t1Ms] else []) = [] := by
    split_ifs <;> rfl
  exact vis_logs_of_upper_nil s hobs

/-- A step whose visible outcome depends on what is visible. -/
def Respects (f : Ctx → Ctx) : Prop := ∀ s, vis (f (vis s)) = vis (f s)

namespace Respects

theorem id : Respects fun s => s := vis_vis

theorem comp {f g : Ctx → Ctx} (hg : Respects g) (hf : Respects f) : Respects fun s => g (f s) := by
  intro s
  calc vis (g (f (vis s))) = vis (g (vis (f (vis s)))) := (hg _).symm
    _ = vis (g (vis (f s))) := by rw [hf s]
    _ = vis (g (f s)) := hg _

/-- A choice by what is visible. -/
theorem ite {c : Ctx → Prop} [DecidablePred c] {f g : Ctx → Ctx} (hc : ∀ s, c (vis s) ↔ c s)
    (hf : Respects f) (hg : Respects g) : Respects fun s => if c s then f s else g s := by
  intro s
  by_cases h : c s
  · simp only [if_pos ((hc s).mpr h), if_pos h]
    exact hf s
  · simp only [if_neg (mt (hc s).mp h), if_neg h]
    exact hg s

/-- A step without visible outcome. -/
theorem of_invisible {f : Ctx → Ctx} (h : ∀ s, vis (f s) = vis s) : Respects f := by
  intro s
  rw [h, h, vis_vis]

variable {st : Station}

theorem put (f : Ctx → Frame) : Respects fun s => s.put st (f s) := of_invisible fun s => vis_put st s _

theorem log {o : Obs} (h : upper [o] = []) : Respects fun s => s.log o :=
  of_invisible fun s => vis_logs_of_upper_nil s h

theorem t1Start : Respects (t1Start st) := of_invisible vis_t1Start

theorem t1Stop : Respects (t1Stop st) := of_invisible fun s => by
  have hobs : upper (if s.t1Active && st.platform.t1Stop then [.t1Stop] else []) = [] := by
    split_ifs <;> rfl
  exact vis_logs_of_upper_nil s hobs

theorem t2Start : Respects (t2Start st) := by
  intro s
  have hobs : upper (if st.platform.t2Start then [.t2Start st.config.t2Ms] else []) = [] := by
    split_ifs <;> rfl
  simp only [AtcHdlc.t2Start, vis, Ctx.logs, upper_append, upper_upper, hobs]

theorem t2Stop : Respects (t2Stop st) := by
  intro s
  have hobs : upper (if s.t2Active && st.platform.t2Stop then [.t2Stop] else []) = [] := by
    split_ifs <;> rfl
  have hobs' : upper (if (vis s).t2Active && st.platform.t2Stop then [.t2Stop] else []) = [] := hobs
  simp only [AtcHdlc.t2Stop, vis, Ctx.logs, upper_append, upper_upper, hobs, hobs'] at *

theorem resetState : Respects (resetState st) := by
  have hclear : Respects (clearState st) := by
    intro s
    unfold clearState clearSlotLens
    cases st.txWindow with
    | none => simp only [vis, upper_upper, Ctx.log, upper_append]
    | some w => simp only [vis, upper_upper, Ctx.log, upper_append]
  exact (t2Stop.comp t1Stop).comp hclear

/-- A step whose choice is read off beforehand. -/
theorem read {β : Type} {k : Ctx → β} {f : β → Ctx → Ctx} (hk : ∀ s, k (vis s) = k s)
    (hf : ∀ b, Respects (f b)) : Respects fun s => f (k s) s := by
  intro s
  simp only [hk]
  exact hf (k s) s

/-- Contexts that look the same do the step alike. -/
theorem keeping {f : Ctx → Ctx} (hf : Respects f) : Keeping (fun s t => vis s = vis t) f := by
  intro s t h
  calc vis (f s) = vis (f (vis s)) := (hf s).symm
    _ = vis (f (vis t)) := by rw [h]
    _ = vis (f t) := hf t

end Respects

/-- Looking the same is kept by whatever a frame does. -/
theorem vis_congruence {st : Station} (hp : st.platform.Passive) :
    Congruence st fun s t => vis s = vis t where
  control {s t} h := by
    change controlView (vis s) = controlView (vis t)
    rw [h]
  put f _ := (Respects.put fun _ => f).keeping
  t1Start := Respects.t1Start.keeping
  t1Stop := Respects.t1Stop.keeping
  t2Start := Respects.t2Start.keeping
  t2Stop := Respects.t2Stop.keeping
  data payload := by
    refine Respects.keeping fun s => ?_
    simp only [onData_passive hp, vis_logs, vis_vis]
  event event := by
    refine Respects.keeping fun s => ?_
    simp only [onEvent_passive hp, vis_logs, vis_vis]
  dispatch r := (Respects.log rfl).keeping
  link state := Respects.keeping fun s => by simp only [vis, upper_upper]
  reset := Respects.resetState.keeping
  ack nr := Respects.keeping fun s => by simp only [vis, Ctx.log, upper_append, upper_upper]
  nullWindow := (Respects.log rfl).keeping
  receive payload := Respects.keeping fun s => by simp only [vis, Ctx.log, upper_append, upper_upper]
  rejException := Respects.keeping fun s => by simp only [vis, upper_upper]
  remoteBusy busy := Respects.keeping fun s => by simp only [vis, upper_upper]
  arm fromSeq := (Respects.of_invisible fun _ => rfl).keeping
  frmr ctrl flags := by
    have hnote : Respects fun s => { s with frmrCtrl := ctrl, frmrFlags := flags } := by
      intro s
      simp only [vis, upper_upper]
    have hsend : Respects (retransmitFrmr st) :=
      Respects.of_invisible fun s => by rw [retransmitFrmr_eq, vis_put]
    exact (hsend.comp (Respects.t2Stop.comp hnote)).keeping

section Recut

variable {st : Station} {w : TxWindow}

namespace Respects

theorem rxRestart (state : RxState) : Respects fun s => rxRestart s state := by
  intro s
  simp only [AtcHdlc.rxRestart, vis, upper_upper]

/-- The handling of a frame shows what it finds. -/
theorem dispatchFrame (hp : st.platform.Passive) (r : Received) : Respects (r.dispatch st) :=
  fun s => (vis_congruence hp).dispatchFrame r (vis_vis s)

theorem handleFlag (hp : st.platform.Passive) : Respects (handleFlag st) := by
  have hframe : Respects fun s =>
      AtcHdlc.dispatchFrame st s (s.rxBuffer 0) (s.rxBuffer 1)
        (if s.rxIndex - fcsLen > addrLen + ctrlLen then
          some (readBuffer s (addrLen + ctrlLen)
            ((s.rxIndex - fcsLen - (addrLen + ctrlLen)) % 2 ^ 16))
        else none) :=
    read (k := fun s => (⟨s.rxBuffer 0, s.rxBuffer 1,
        if s.rxIndex - fcsLen > addrLen + ctrlLen then
          some (readBuffer s (addrLen + ctrlLen)
            ((s.rxIndex - fcsLen - (addrLen + ctrlLen)) % 2 ^ 16))
        else none⟩ : Received)) (f := fun r s => r.dispatch st s) (fun _ => rfl)
      (dispatchFrame hp)
  exact ite (fun _ => Iff.rfl) (rxRestart .addr)
    (ite (fun _ => Iff.rfl) (rxRestart .addr) ((rxRestart .addr).comp hframe))

theorem rxStore (octet : UInt8) : Respects fun s => rxStore st s octet := by
  have hstored : Respects fun s => stored st s octet := by
    intro s
    simp only [stored, vis, upper_upper]
    rfl
  have hdata : Respects fun s => { s with rxState := .data } := by
    intro s
    simp only [vis, upper_upper]
  simp only [rxStore_eq]
  exact ite (fun _ => Iff.rfl) (rxRestart .hunt)
    (ite (c := fun s => s.rxIndex = 0) (fun _ => Iff.rfl)
      (ite (c := fun s => Accepted s.myAddress s.peerAddress octet) (fun _ => Iff.rfl)
        (hdata.comp hstored) ((rxRestart .hunt).comp hstored))
      hstored)

theorem rxByte (hp : st.platform.Passive) (byte : UInt8) : Respects fun s => rxByte st s byte := by
  have hset (state : RxState) : Respects fun s => { s with rxState := state } := by
    intro s
    simp only [vis, upper_upper]
  exact ite (c := fun _ => byte = flag) (fun _ => Iff.rfl) (handleFlag hp)
    (ite (c := fun s => s.rxState = .hunt) (fun _ => Iff.rfl) id
      (ite (c := fun _ => byte = esc) (fun _ => Iff.rfl) (hset .esc)
        (ite (c := fun s => s.rxState = .esc) (fun _ => Iff.rfl)
          ((rxStore (byte ^^^ xorMask)).comp (hset .data)) (rxStore byte))))

theorem rxBytes (hp : st.platform.Passive) (bytes : List UInt8) :
    Respects fun s => rxBytes st s bytes := by
  induction bytes with
  | nil => exact id
  | cons byte bytes ih => exact ih.comp (rxByte hp byte)

end Respects

theorem rxBytes_vis (hp : st.platform.Passive) {s t : Ctx} (h : vis s = vis t) (bytes : List UInt8) :
    vis (rxBytes st s bytes) = vis (rxBytes st t bytes) := by
  rw [← Respects.rxBytes hp bytes s, ← Respects.rxBytes hp bytes t, h]

/-- The frames of a chunk, in contexts of which only the visible part is shown. -/
def visFrames (st : Station) (s : Ctx) (bytes : List UInt8) : List (Ctx × Received) :=
  (chunkFrames st s bytes).map (Prod.map vis id)

theorem visFrames_congr (hp : st.platform.Passive) {s t : Ctx} (h : vis s = vis t)
    (bytes : List UInt8) : visFrames st s bytes = visFrames st t bytes := by
  induction bytes generalizing s t with
  | nil => rfl
  | cons byte bytes ih =>
      have hcompleted : completed s byte = completed t byte := by
        change completed (vis s) byte = completed (vis t) byte
        rw [h]
      have hnext : vis (rxByte st s byte) = vis (rxByte st t byte) := by
        rw [← Respects.rxByte hp byte s, ← Respects.rxByte hp byte t, h]
      have hrest := ih hnext
      unfold visFrames at hrest ⊢
      rw [chunkFrames, chunkFrames, List.map_append, List.map_append, hrest, hcompleted]
      cases completed t byte with
      | none => rfl
      | some f =>
          simp only [Option.toList_some, List.map_cons, List.map_nil, Prod.map_apply, h]

theorem retransmitLoop_vis (endVs fuel slotIdx : Nat) (s : Ctx) :
    vis { retransmitLoop st w endVs fuel slotIdx s with vs := s.vs } = vis s := by
  induction fuel generalizing slotIdx s with
  | zero => rfl
  | succ fuel ih =>
      simp only [retransmitLoop, frameSend_octets]
      by_cases hdone : s.vs = endVs
      · rw [if_pos hdone]
      · rw [if_neg hdone]
        generalize hf : (⟨(s.log (.slotRead slotIdx)).peerAddress,
          iCtrl (s.log (.slotRead slotIdx)).vs (s.log (.slotRead slotIdx)).vr false,
          readSlot w (s.log (.slotRead slotIdx)) slotIdx⟩ : Frame) = f
        have hput : vis ((s.log (.slotRead slotIdx)).put st f) = vis s :=
          (vis_put st _ f).trans (vis_logs_of_upper_nil s rfl)
        have hrest := ih ((slotIdx + 1) % w.slotCount)
          { (s.log (.slotRead slotIdx)).put st f with
            vs := (((s.log (.slotRead slotIdx)).put st f).vs + 1) % mod8 }
        have hback := congrArg (fun u : Ctx => { u with vs := s.vs }) (hrest.trans rfl)
        exact hback.trans (congrArg (fun u : Ctx => { u with vs := s.vs }) hput)

/-- The retransmission changes nothing visible: it walks V(S) back to where it was. -/
theorem retransmitOutstanding_vis {s : Ctx} (hvs : s.vs < mod8) (hfrom : s.retransmitFrom < mod8) :
    vis (retransmitOutstanding st w s) = vis s := by
  unfold retransmitOutstanding
  extract_lets t endVs outstanding slotIdx u v
  have hend : v.vs = s.vs :=
    retransmitLoop_vs hfrom hvs (Nat.le_of_lt (Nat.mod_lt _ (by decide)))
  have hloop : vis { v with vs := u.vs } = vis u := retransmitLoop_vis endVs 8 slotIdx u
  calc vis (t1Start st v) = vis v := vis_t1Start v
    _ = { vis { v with vs := u.vs } with vs := v.vs } := rfl
    _ = { vis u with vs := s.vs } := by rw [hloop, hend]
    _ = vis s := rfl

/-- The retransmission at the end of a call is invisible. -/
theorem retransmitIfPending_vis {s : Ctx} (hinv : ∀ w, st.txWindow = some w → WindowInv w s) :
    vis (retransmitIfPending st s) = vis s := by
  unfold retransmitIfPending
  split_ifs
  · cases hw : st.txWindow with
    | none => exact @vis_logs_of_upper_nil s [.nullWindow] rfl
    | some w => exact retransmitOutstanding_vis (hinv w hw).vs_lt (hinv w hw).from_lt
  · rfl

theorem dataIn_vis (hw : st.txWindow = some w) (hp : st.platform.Passive) {s : Ctx}
    (h : WindowInv w s) (bytes : List UInt8) : vis (dataIn st s bytes) = vis (rxBytes st s bytes) := by
  refine retransmitIfPending_vis fun w' hw' => ?_
  obtain rfl : w = w' := Option.some.inj (hw.symm.trans hw')
  exact h.rxBytes hp bytes

/-- Wherever the octets are cut, what is visible in the end is the same. -/
theorem foldl_dataIn_vis (hw : st.txWindow = some w) (hp : st.platform.Passive) {s : Ctx}
    (h : WindowInv w s) (chunks : List (List UInt8)) :
    vis (chunks.foldl (dataIn st) s) = vis (rxBytes st s chunks.flatten) := by
  induction chunks generalizing s with
  | nil => rfl
  | cons c chunks ih =>
      have hrest := rxBytes_vis hp (dataIn_vis hw hp h c) chunks.flatten
      calc vis (chunks.foldl (dataIn st) (dataIn st s c))
          = vis (rxBytes st (dataIn st s c) chunks.flatten) := ih (h.dataIn hw hp c)
        _ = vis (rxBytes st (rxBytes st s c) chunks.flatten) := hrest
        _ = vis (rxBytes st s (c :: chunks).flatten) := by
            rw [rxBytes, rxBytes, rxBytes, List.flatten_cons, List.foldl_append]

theorem WindowInv.foldl_dataIn (hw : st.txWindow = some w) (hp : st.platform.Passive) {s : Ctx}
    (h : WindowInv w s) (chunks : List (List UInt8)) : WindowInv w (chunks.foldl (AtcHdlc.dataIn st) s) := by
  induction chunks generalizing s with
  | nil => exact h
  | cons c chunks ih => exact ih (h.dataIn hw hp c)

theorem foldl_dataIn_not_pending (hp : st.platform.Passive) {s : Ctx}
    (h : s.retransmitPending = false) (chunks : List (List UInt8)) :
    (chunks.foldl (dataIn st) s).retransmitPending = false := by
  induction chunks generalizing s with
  | nil => exact h
  | cons c chunks ih => exact ih (dataIn_not_pending hp h c)

/-- The last thing that some frames do to T1. -/
def lastT1Change (frames : List (Ctx × Received)) : Option Bool :=
  frames.foldl (fun change x => (t1Change x.1 x.2.ctrl).or change) none

theorem lastT1Change_vis (st : Station) (s : Ctx) (bytes : List UInt8) :
    lastT1Change (visFrames st s bytes) = lastT1Change (chunkFrames st s bytes) := by
  unfold lastT1Change visFrames
  rw [List.foldl_map]
  rfl

theorem next_t1Active (v : AckView) (x : Ctx × Received) :
    (v.next x).t1Active = (t1Change x.1 x.2.ctrl).getD v.t1Active := by
  unfold AckView.next
  by_cases hresets : resets x.1 x.2.ctrl = true
  · have hchange : t1Change x.1 x.2.ctrl = some false := if_pos hresets
    rw [if_pos hresets, hchange]
    rfl
  · rw [if_neg hresets]

theorem fold_t1Active (v : AckView) (frames : List (Ctx × Received)) :
    (frames.foldl AckView.next v).t1Active = (lastT1Change frames).getD v.t1Active := by
  induction frames using List.reverseRecOn with
  | nil => rfl
  | append_singleton frames x ih =>
      have hlast : lastT1Change (frames ++ [x]) =
          (t1Change x.1 x.2.ctrl).or (lastT1Change frames) := by
        rw [lastT1Change, List.foldl_append]
        rfl
      rw [List.foldl_append, List.foldl_cons, List.foldl_nil, next_t1Active, ih, hlast,
        Option.getD_or]

theorem rxBytes_t1Active (hw : st.txWindow = some w) (hp : st.platform.Passive) (s : Ctx)
    (bytes : List UInt8) :
    (rxBytes st s bytes).t1Active = (lastT1Change (chunkFrames st s bytes)).getD s.t1Active :=
  (congrArg AckView.t1Active (ackView_rxBytes hp (.of_some hw s) bytes)).trans (fold_t1Active _ _)

/-- A chunk arms a retransmission just when one of its frames does. -/
theorem rxBytes_pending_iff (hw : st.txWindow = some w) (hp : st.platform.Passive) {s : Ctx}
    (hvs : s.vs < mod8) (hpending : s.retransmitPending = false) (bytes : List UInt8) :
    (rxBytes st s bytes).retransmitPending = true ↔ ∃ x ∈ chunkFrames st s bytes, armsFrame x := by
  have hview : (rxBytes st s bytes).retransmitPending =
      ((chunkFrames st s bytes).foldl AckView.next (ackView s)).retransmitPending :=
    congrArg AckView.retransmitPending (ackView_rxBytes hp (.of_some hw s) bytes)
  have hchain := chunkFrames_chained hp (.of_some hw s) bytes
  rw [hview]
  generalize chunkFrames st s bytes = frames at *
  constructor
  · intro hend
    by_contra hnone
    have hstill : (frames.foldl AckView.next (ackView s)).retransmitPending = s.retransmitPending :=
      (fold_not_armed fun y hy => by
        by_contra hy'
        exact hnone ⟨y, hy, by simpa using hy'⟩).1
    rw [hstill, hpending] at hend
    exact absurd hend (by decide)
  · intro harmed
    obtain ⟨left, x, right, rfl, harms, hright⟩ := exists_last_arms harmed
    exact (fold_last_arms hchain hvs harms hright).1

/-- Chunks that arm nothing are read as one. -/
theorem foldl_dataIn_of_not_armed {s : Ctx} {chunks : List (List UInt8)}
    (h : ∀ pre, pre <+: chunks.flatten → (rxBytes st s pre).retransmitPending = false) :
    chunks.foldl (dataIn st) s = rxBytes st s chunks.flatten := by
  induction chunks generalizing s with
  | nil => rfl
  | cons c chunks ih =>
      have hc : dataIn st s c = rxBytes st s c := by
        have hpending := h c (List.prefix_append c chunks.flatten)
        rw [dataIn, retransmitIfPending, hpending, if_neg (by decide)]
      have happend (bytes : List UInt8) :
          rxBytes st (rxBytes st s c) bytes = rxBytes st s (c ++ bytes) :=
        List.foldl_append.symm
      rw [List.foldl_cons, hc, List.flatten_cons, ← happend]
      refine ih fun pre hpre => ?_
      rw [happend]
      exact h _ ((List.prefix_append_right_inj c).mpr hpre)

theorem foldl_dataIn_of_no_arms (hw : st.txWindow = some w) (hp : st.platform.Passive) {s : Ctx}
    (hpending : s.retransmitPending = false) {chunks : List (List UInt8)}
    (hnone : ∀ y ∈ chunkFrames st s chunks.flatten, armsFrame y = false) :
    chunks.foldl (dataIn st) s = rxBytes st s chunks.flatten := by
  refine foldl_dataIn_of_not_armed fun pre hpre => ?_
  obtain ⟨rest, hrest⟩ := hpre
  have hframes : ∀ y ∈ chunkFrames st s pre, armsFrame y = false := by
    intro y hy
    refine hnone y ?_
    rw [← hrest, chunkFrames_append]
    exact List.mem_append_left _ hy
  have hview := congrArg AckView.retransmitPending (ackView_rxBytes hp (.of_some hw s) pre)
  exact hview.trans ((fold_not_armed hframes).1.trans hpending)

/-- Some chunk is the last one to arm a retransmission, or none does. -/
theorem exists_last_arming (st : Station) (s : Ctx) (chunks : List (List UInt8)) :
    (∀ y ∈ chunkFrames st s chunks.flatten, armsFrame y = false) ∨
      ∃ left c right, chunks = left ++ c :: right ∧
        (∃ x ∈ chunkFrames st (rxBytes st s left.flatten) c, armsFrame x) ∧
        ∀ y ∈ chunkFrames st (rxBytes st s (left.flatten ++ c)) right.flatten, armsFrame y = false := by
  induction chunks generalizing s with
  | nil => exact Or.inl (by simp [chunkFrames])
  | cons c chunks ih =>
      have happend (bytes : List UInt8) :
          rxBytes st (rxBytes st s c) bytes = rxBytes st s (c ++ bytes) :=
        List.foldl_append.symm
      rcases ih (rxBytes st s c) with hnone | ⟨left, d, right, hchunks, harmed, hright⟩
      · by_cases harmed : ∃ x ∈ chunkFrames st s c, armsFrame x
        · exact Or.inr ⟨[], c, chunks, rfl, harmed, hnone⟩
        · refine Or.inl fun y hy => ?_
          rw [List.flatten_cons, chunkFrames_append] at hy
          rcases List.mem_append.mp hy with hy | hy
          · by_contra hy'
            exact harmed ⟨y, hy, by simpa using hy'⟩
          · exact hnone y hy
      · rw [happend] at harmed
        rw [happend, ← List.append_assoc] at hright
        exact Or.inr ⟨c :: left, d, right, by rw [hchunks, List.cons_append], harmed, hright⟩

/-- T1 after cut octets of which one chunk is the last that arms: what the frames after it leave. -/
theorem foldl_dataIn_t1Active (hw : st.txWindow = some w) (hp : st.platform.Passive) {s : Ctx}
    (h : WindowInv w s) (hpending : s.retransmitPending = false) {left right : List (List UInt8)}
    {c : List UInt8} (harmed : ∃ x ∈ chunkFrames st (rxBytes st s left.flatten) c, armsFrame x)
    (hright : ∀ y ∈ chunkFrames st (rxBytes st s (left.flatten ++ c)) right.flatten,
      armsFrame y = false) :
    ((left ++ c :: right).foldl (dataIn st) s).t1Active =
      (lastT1Change (chunkFrames st (rxBytes st s (left.flatten ++ c)) right.flatten)).getD true := by
  have hleft := h.foldl_dataIn hw hp left
  have hpendingLeft := foldl_dataIn_not_pending hp hpending left
  have hvisLeft := foldl_dataIn_vis hw hp h left
  rw [List.foldl_append, List.foldl_cons]
  generalize hs₁ : left.foldl (dataIn st) s = s₁ at *
  have hvis : vis (dataIn st s₁ c) = vis (rxBytes st s (left.flatten ++ c)) := by
    rw [dataIn_vis hw hp hleft, rxBytes_vis hp hvisLeft, rxBytes, rxBytes, rxBytes,
      List.foldl_append]
  have hcPending : (rxBytes st s₁ c).retransmitPending = true := by
    rw [rxBytes_pending_iff hw hp hleft.vs_lt hpendingLeft]
    obtain ⟨x, hx, harms⟩ := harmed
    have hx' : Prod.map vis id x ∈ visFrames st s₁ c := by
      rw [visFrames_congr hp hvisLeft]
      exact List.mem_map_of_mem hx
    obtain ⟨y, hy, hyx⟩ := List.mem_map.mp hx'
    refine ⟨y, hy, ?_⟩
    change armsFrame (Prod.map vis id y) = true
    rw [hyx]
    exact harms
  have hcActive : (dataIn st s₁ c).t1Active = true := by
    rw [dataIn, retransmitIfPending, if_pos hcPending, hw]
    rfl
  have hnone : ∀ y ∈ chunkFrames st (dataIn st s₁ c) right.flatten, armsFrame y = false := by
    intro y hy
    have hy' : Prod.map vis id y ∈ visFrames st (rxBytes st s (left.flatten ++ c)) right.flatten := by
      rw [← visFrames_congr hp hvis]
      exact List.mem_map_of_mem hy
    obtain ⟨z, hz, hzy⟩ := List.mem_map.mp hy'
    change armsFrame (Prod.map vis id y) = false
    rw [← hzy]
    exact hright z hz
  rw [foldl_dataIn_of_no_arms hw hp (dataIn_not_pending hp hpendingLeft c) hnone,
    rxBytes_t1Active hw hp, hcActive, ← lastT1Change_vis, visFrames_congr hp hvis, lastT1Change_vis]

/-- T1 after the octets in one call, where some frame arms. -/
theorem dataIn_t1Active_of_arms (hw : st.txWindow = some w) (hp : st.platform.Passive) {s : Ctx}
    (h : WindowInv w s) (hpending : s.retransmitPending = false) {bytes : List UInt8}
    (harmed : ∃ x ∈ chunkFrames st s bytes, armsFrame x) : (dataIn st s bytes).t1Active = true := by
  have hend := (rxBytes_pending_iff hw hp h.vs_lt hpending bytes).mpr harmed
  rw [dataIn, retransmitIfPending, if_pos hend, hw]
  rfl

/-! ### The outcome -/

/-- The payloads given to `on_data`. -/
def payloads (trace : List Obs) : List (List UInt8) :=
  trace.filterMap fun
    | .data payload => some payload
    | _ => none

/-- The events given to `on_event`. -/
def events (trace : List Obs) : List Event :=
  trace.filterMap fun
    | .event event => some event
    | _ => none

/-- Two contexts with the same protocol and parser fields and the same calls of `on_data` and
`on_event` behind them. -/
structure SameOutcome (s t : Ctx) : Prop where
  currentState : s.currentState = t.currentState
  vs : s.vs = t.vs
  va : s.va = t.va
  vr : s.vr = t.vr
  n2 : s.n2 = t.n2
  t1Active : s.t1Active = t.t1Active
  t2Active : s.t2Active = t.t2Active
  rejException : s.rejException = t.rejException
  remoteBusy : s.remoteBusy = t.remoteBusy
  localBusy : s.localBusy = t.localBusy
  retransmitPending : s.retransmitPending = t.retransmitPending
  txNextSlot : s.txNextSlot = t.txNextSlot
  rxState : s.rxState = t.rxState
  rxIndex : s.rxIndex = t.rxIndex
  rxCrc : s.rxCrc = t.rxCrc
  rxBuffer : s.rxBuffer = t.rxBuffer
  payloads : payloads s.trace = payloads t.trace
  events : events s.trace = events t.trace

theorem payloads_upper (trace : List Obs) : payloads (upper trace) = payloads trace := by
  unfold payloads upper
  rw [List.filterMap_filter]
  congr 1
  funext o
  cases o <;> rfl

theorem events_upper (trace : List Obs) : events (upper trace) = events trace := by
  unfold events upper
  rw [List.filterMap_filter]
  congr 1
  funext o
  cases o <;> rfl

theorem sameOutcome_of_vis {s t : Ctx} (hvis : vis s = vis t) (ht1 : s.t1Active = t.t1Active)
    (hpending : s.retransmitPending = t.retransmitPending) : SameOutcome s t := by
  have hread {β : Type} (field : Ctx → β) : field (vis s) = field (vis t) := congrArg field hvis
  constructor
  case t1Active => exact ht1
  case retransmitPending => exact hpending
  case currentState => exact hread Ctx.currentState
  case vs => exact hread Ctx.vs
  case va => exact hread Ctx.va
  case vr => exact hread Ctx.vr
  case n2 => exact hread Ctx.n2
  case t2Active => exact hread Ctx.t2Active
  case rejException => exact hread Ctx.rejException
  case remoteBusy => exact hread Ctx.remoteBusy
  case localBusy => exact hread Ctx.localBusy
  case txNextSlot => exact hread Ctx.txNextSlot
  case rxState => exact hread Ctx.rxState
  case rxIndex => exact hread Ctx.rxIndex
  case rxCrc => exact hread Ctx.rxCrc
  case rxBuffer => exact hread Ctx.rxBuffer
  case payloads =>
    rw [← payloads_upper s.trace, ← payloads_upper t.trace]
    exact hread fun u => payloads u.trace
  case events =>
    rw [← events_upper s.trace, ← events_upper t.trace]
    exact hread fun u => events u.trace

/-- After the last chunk with a frame that arms a retransmission, the last frame that changes T1, if
there is one, starts it. -/
def T1Kept (st : Station) (s : Ctx) (chunks : List (List UInt8)) : Prop :=
  ∀ left c right, chunks = left ++ c :: right →
    (∃ x ∈ chunkFrames st (rxBytes st s left.flatten) c, armsFrame x) →
    (∀ y ∈ chunkFrames st (rxBytes st s (left.flatten ++ c)) right.flatten, armsFrame y = false) →
      lastT1Change (chunkFrames st (rxBytes st s (left.flatten ++ c)) right.flatten) ≠ some false

/-- With a transmit window, cutting matters for T1 alone, and only where a later chunk stops the T1
that an earlier one started with its retransmission. -/
theorem sameOutcome_iff_of_window (hw : st.txWindow = some w) (hp : st.platform.Passive) {s : Ctx}
    (h : WindowInv w s) (hpending : s.retransmitPending = false) (chunks : List (List UInt8)) :
    SameOutcome (chunks.foldl (dataIn st) s) (dataIn st s chunks.flatten) ↔ T1Kept st s chunks := by
  have hvis : vis (chunks.foldl (dataIn st) s) = vis (dataIn st s chunks.flatten) :=
    (foldl_dataIn_vis hw hp h chunks).trans (dataIn_vis hw hp h _).symm
  have hnotPending : (chunks.foldl (dataIn st) s).retransmitPending =
      (dataIn st s chunks.flatten).retransmitPending :=
    (foldl_dataIn_not_pending hp hpending chunks).trans (dataIn_not_pending hp hpending _).symm
  have hwhole {left right : List (List UInt8)} {c : List UInt8} (hchunks : chunks = left ++ c :: right)
      (harmed : ∃ x ∈ chunkFrames st (rxBytes st s left.flatten) c, armsFrame x) :
      (dataIn st s chunks.flatten).t1Active = true := by
    refine dataIn_t1Active_of_arms hw hp h hpending ?_
    obtain ⟨x, hx, harms⟩ := harmed
    refine ⟨x, ?_, harms⟩
    rw [hchunks, List.flatten_append, List.flatten_cons, chunkFrames_append, chunkFrames_append]
    exact List.mem_append_right _ (List.mem_append_left _ hx)
  constructor
  · rintro hsame left c right rfl harmed hright hstopped
    have hcut := foldl_dataIn_t1Active hw hp h hpending harmed hright
    rw [hstopped, hsame.t1Active, hwhole rfl harmed] at hcut
    exact absurd hcut (by decide)
  · intro hkept
    refine sameOutcome_of_vis hvis ?_ hnotPending
    rcases exists_last_arming st s chunks with hnone | ⟨left, c, right, hchunks, harmed, hright⟩
    · have hone := @foldl_dataIn_of_no_arms st w hw hp s hpending [chunks.flatten]
        (by rwa [List.flatten_singleton])
      rw [List.flatten_singleton] at hone
      rw [foldl_dataIn_of_no_arms hw hp hpending hnone, ← hone]
      rfl
    · have hchange := hkept left c right hchunks harmed hright
      rw [hwhole hchunks harmed, hchunks, foldl_dataIn_t1Active hw hp h hpending harmed hright]
      cases hlast : lastT1Change
          (chunkFrames st (rxBytes st s (left.flatten ++ c)) right.flatten) with
      | none => rfl
      | some started =>
          cases started with
          | true => rfl
          | false => exact absurd hlast hchange

theorem foldl_dataIn_of_no_window (hp : st.platform.Passive) (hnone : st.txWindow = none) {s : Ctx}
    (hpending : s.retransmitPending = false) (chunks : List (List UInt8)) :
    chunks.foldl (dataIn st) s = rxBytes st s chunks.flatten :=
  foldl_dataIn_of_not_armed fun pre _ => (rxBytes_pending hp hnone s pre).trans hpending

/-- In every reachable context and for every way of cutting the octets, the outcome is that of one
call just when T1 is kept after the last retransmission; without a window it always is. -/
theorem sameOutcome_iff_t1Kept (hp : st.platform.Passive) {mem : Memory} {s : Ctx}
    (h : Reachable st mem s) (chunks : List (List UInt8)) :
    SameOutcome (chunks.foldl (dataIn st) s) (dataIn st s chunks.flatten) ↔
      (st.txWindow.isSome → T1Kept st s chunks) := by
  have hpending := h.not_pending hp
  cases hw : st.txWindow with
  | some w =>
      rw [sameOutcome_iff_of_window hw hp (h.windowInv hw hp) hpending]
      simp
  | none =>
      have hone := @foldl_dataIn_of_no_window st hp hw s hpending [chunks.flatten]
      rw [List.flatten_singleton] at hone
      have hsame : chunks.foldl (dataIn st) s = dataIn st s chunks.flatten := by
        rw [foldl_dataIn_of_no_window hp hw hpending, ← hone]
        rfl
      rw [hsame]
      exact iff_of_true (sameOutcome_of_vis rfl rfl rfl) (by simp)

theorem sameOutcome_iff_t1Kept_mock :
    let st := mockStation 0x01 3 (by decide) (by decide)
    let chunks := [Frame.octets crcOpsDefault ⟨0x01, sCtrl sRej 1 false, []⟩,
      Frame.octets crcOpsDefault ⟨0x01, sCtrl sRr 2 false, []⟩]
    SameOutcome (chunks.foldl (dataIn st) twoOutstanding) (dataIn st twoOutstanding chunks.flatten) ↔
      (st.txWindow.isSome → T1Kept st twoOutstanding chunks) :=
  sameOutcome_iff_t1Kept mockPlatform_passive twoOutstanding_reachable _

/-- A REJ and an RR that acknowledges all. In two calls the retransmission runs first and the RR stops
T1; in one call the retransmission comes last and starts T1 with nothing outstanding. -/
theorem chunking_matters :
    let st := mockStation 0x01 3 (by decide) (by decide)
    let chunks := [Frame.octets crcOpsDefault ⟨0x01, sCtrl sRej 1 false, []⟩,
      Frame.octets crcOpsDefault ⟨0x01, sCtrl sRr 2 false, []⟩]
    Reachable st zeroMemory twoOutstanding ∧
      ¬SameOutcome (chunks.foldl (dataIn st) twoOutstanding)
        (dataIn st twoOutstanding chunks.flatten) := by
  intro st chunks
  have hcut : (chunks.foldl (dataIn st) twoOutstanding).t1Active = false := by decide +kernel
  have hone : (dataIn st twoOutstanding chunks.flatten).t1Active = true := by decide +kernel
  refine ⟨twoOutstanding_reachable, fun hsame => ?_⟩
  have ht1 := hsame.t1Active
  rw [hcut, hone] at ht1
  exact absurd ht1 (by decide)

end Recut

end AtcHdlc
