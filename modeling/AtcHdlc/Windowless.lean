import AtcHdlc.Calls
import AtcHdlc.Sessions

/-! A station without a transmit window. `frames_acked` and `retransmit_outstanding` use the window without
a look at the pointer; they are never reached, because without I-frames of its own the station
takes N(R) = 0 only, which moves nothing. The callbacks may use the interface as they like. -/

namespace AtcHdlc

/-- The marks that the use of a window leaves, a window that is there or one that is not. The statement
behind `acked` reads the number of slots. -/
def UsesWindow : Obs → Prop
  | .acked _ | .accept _ | .slotRead _ | .nullWindow => True
  | _ => False

/-- No sequence number has moved, nothing is armed, and no window has been used. -/
structure Windowless (s : Ctx) : Prop where
  va : s.va = 0
  vs : s.vs = 0
  pending : s.retransmitPending = false
  unused : ∀ o ∈ s.trace, ¬UsesWindow o

/-- Callbacks that keep a property of contexts. -/
def Platform.Keeps (p : Platform) (P : Ctx → Prop) : Prop :=
  (∀ f ∈ p.onData, ∀ payload s, P s → P (f payload s)) ∧ ∀ f ∈ p.onEvent, ∀ event s, P s → P (f event s)

/-- Callbacks that reach the context through the interface only. What `on_data` or `on_event` calls is
any list of calls, `atc_hdlc_data_in` among them; the callbacks that run inside of these nest less deep. -/
inductive Interfaced (st : Station) : Platform → Prop where
  | passive {p : Platform} (h : p.Passive) : Interfaced st p
  | nested {p : Platform} (inner : Obs → Ctx → Platform) (calls : Obs → Ctx → List Call)
      (hinner : ∀ o s, Interfaced st (inner o s))
      (hdata : ∀ f ∈ p.onData, ∀ payload s, f payload s =
        (calls (.data payload) s).foldl (Call.run { st with platform := inner (.data payload) s }) s)
      (hevent : ∀ f ∈ p.onEvent, ∀ event s, f event s =
        (calls (.event event) s).foldl (Call.run { st with platform := inner (.event event) s }) s) :
      Interfaced st p

section Windowless

variable {st : Station} {s : Ctx}

theorem Windowless.init (st : Station) (mem : Memory) : Windowless (initCtx st mem) :=
  ⟨rfl, rfl, rfl, fun _ ho => absurd ho List.not_mem_nil⟩

/-- What leaves the numbers and the armed bit alone and adds no use of the window. -/
theorem Windowless.congr {t : Ctx} {os : List Obs} (h : Windowless s) (hva : t.va = s.va) (hvs : t.vs = s.vs)
    (hpending : t.retransmitPending = s.retransmitPending) (htrace : t.trace = s.trace ++ os)
    (hos : ∀ o ∈ os, ¬UsesWindow o) : Windowless t where
  va := hva.trans h.va
  vs := hvs.trans h.vs
  pending := hpending.trans h.pending
  unused o ho := by
    rw [htrace] at ho
    rcases List.mem_append.mp ho with ho | ho
    · exact h.unused o ho
    · exact hos o ho

theorem Windowless.same {t : Ctx} (h : Windowless s) (hva : t.va = s.va) (hvs : t.vs = s.vs)
    (hpending : t.retransmitPending = s.retransmitPending) (htrace : t.trace = s.trace) : Windowless t :=
  h.congr hva hvs hpending (htrace.trans (List.append_nil _).symm) fun _ ho => absurd ho List.not_mem_nil

theorem Windowless.log (h : Windowless s) {o : Obs} (ho : ¬UsesWindow o) : Windowless (s.log o) :=
  h.congr rfl rfl rfl rfl fun o' ho' => by rwa [List.mem_singleton.mp ho']

/-- A timer callback, where there is one. -/
theorem Windowless.timer {t : Ctx} {present : Bool} {o : Obs} (h : Windowless s) (hva : t.va = s.va)
    (hvs : t.vs = s.vs) (hpending : t.retransmitPending = s.retransmitPending)
    (htrace : t.trace = s.trace ++ if present then [o] else []) (ho : ¬UsesWindow o) : Windowless t := by
  refine h.congr hva hvs hpending htrace fun o' ho' => ?_
  split_ifs at ho'
  · rwa [List.mem_singleton.mp ho']
  · exact absurd ho' List.not_mem_nil

theorem Windowless.put (h : Windowless s) (f : Frame) : Windowless (s.put st f) := by
  refine h.congr rfl rfl rfl rfl fun o ho => ?_
  rcases Frame.mem_obs ho with rfl | ⟨byte, flush, rfl⟩
  · exact id
  · exact id

theorem Windowless.t1Start (h : Windowless s) : Windowless (t1Start st s) :=
  h.timer rfl rfl rfl rfl id

theorem Windowless.t1Stop (h : Windowless s) : Windowless (t1Stop st s) :=
  h.timer rfl rfl rfl rfl id

theorem Windowless.t2Start (h : Windowless s) : Windowless (t2Start st s) :=
  h.timer rfl rfl rfl rfl id

theorem Windowless.t2Stop (h : Windowless s) : Windowless (t2Stop st s) :=
  h.timer rfl rfl rfl rfl id

theorem Windowless.resetState (h : Windowless s) : Windowless (resetState st s) := by
  have hstop : ∀ o ∈ stopObs st s, ¬UsesWindow o := by
    intro o ho
    simp only [stopObs, List.mem_append, List.mem_ite_nil_right, List.mem_singleton] at ho
    rcases ho with ⟨-, rfl⟩ | ⟨-, rfl⟩
    · exact id
    · exact id
  rw [resetState_eq]
  refine ⟨rfl, rfl, h.pending, fun o ho => ?_⟩
  rcases List.mem_append.mp ho with ho | ho
  · rcases List.mem_append.mp ho with ho | ho
    · exact h.unused o ho
    · rw [List.mem_singleton.mp ho]
      exact id
  · exact hstop o ho

theorem Windowless.onData (hkeeps : st.platform.Keeps Windowless) (h : Windowless s) (payload : List UInt8) :
    Windowless (onData st s payload) := by
  unfold AtcHdlc.onData
  cases hf : st.platform.onData with
  | none => exact h
  | some f => exact hkeeps.1 f hf payload _ (h.log id)

theorem Windowless.onEvent (hkeeps : st.platform.Keeps Windowless) (h : Windowless s) (event : Event) :
    Windowless (onEvent st s event) := by
  unfold AtcHdlc.onEvent
  cases hf : st.platform.onEvent with
  | none => exact h
  | some f => exact hkeeps.2 f hf event _ (h.log id)

/-- With both numbers at zero the window of valid N(R) is zero alone. -/
theorem Windowless.nr_eq_va (h : Windowless s) {ctrl : UInt8} (hvalid : nrValid s (ctrlNr ctrl)) :
    ctrlNr ctrl = s.va := by
  have hnr := ctrlNr_lt ctrl
  rw [nrValid, decide_eq_true_eq, h.va, h.vs] at hvalid
  rw [h.va]
  simp only [u8, mod8] at hvalid
  omega

/-- No effect of a frame, whatever its N(R), uses the window. -/
theorem Windowless.effect (hnone : st.txWindow = none) (hkeeps : st.platform.Keeps Windowless)
    {ctrl : UInt8} {s' : Ctx} (he : Effect st ctrl s s') (h : Windowless s) : Windowless s' := by
  cases he with
  | put f => exact h.put f
  | t1Start => exact h.t1Start
  | t1Stop => exact h.t1Stop
  | t2Start => exact h.t2Start
  | t2Stop => exact h.t2Stop
  | data payload => exact h.onData hkeeps payload
  | event event => exact h.onEvent hkeeps event
  | reset => exact h.resetState
  | ack hvalid hne => exact absurd (h.nr_eq_va hvalid) hne
  | nullWindow _ hacked => exact absurd trivial (h.unused _ hacked)
  | receive payload => exact h.congr rfl rfl rfl rfl fun o ho => by rw [List.mem_singleton.mp ho]; exact id
  | arm fromSeq hsome => exact absurd hnone hsome
  | link | rejException | remoteBusy | frmr => exact h.same rfl rfl rfl rfl

theorem Windowless.rxBytes (hnone : st.txWindow = none) (hkeeps : st.platform.Keeps Windowless)
    (h : Windowless s) (bytes : List UInt8) : Windowless (rxBytes st s bytes) :=
  rxBytes_induct (P := Windowless) (Q := fun _ => Windowless) (fun _ _ h => h.same rfl rfl rfl rfl)
    (fun _ _ _ _ h => h.log id) (fun _ _ _ he h => h.effect hnone hkeeps he) (fun _ _ h => h) h bytes

/-- The deeds of every call but `atc_hdlc_transmit_i`. -/
theorem Windowless.deed (hkeeps : st.platform.Keeps Windowless) {call : Call} {s' : Ctx}
    (hcall : ∀ data, call ≠ .transmitI data) (hd : Deed st call s s') (h : Windowless s) : Windowless s' := by
  cases hd with
  | put f => exact h.put f
  | loose crc os hos =>
      refine h.congr rfl rfl rfl rfl fun o ho huse => ?_
      have hloose := hos o ho
      cases o <;> first | exact hloose | exact huse
  | t1Start => exact h.t1Start
  | t2Stop => exact h.t2Stop
  | event event => exact h.onEvent hkeeps event
  | reset => exact h.resetState
  | accept w data heq => exact absurd heq (hcall data)
  | cursor next heq =>
      obtain ⟨data, heq⟩ := heq
      exact absurd heq (hcall data)
  | advance vs heq =>
      obtain ⟨data, heq⟩ := heq
      exact absurd heq (hcall data)
  | t1Done | t2Done | retry | link | hunt | peer | localBusy => exact h.same rfl rfl rfl rfl

/-- `atc_hdlc_transmit_i` looks at the pointer before it uses the window. -/
theorem transmitI_windowless (hnone : st.txWindow = none) (s : Ctx) (data : Payload) :
    (transmitI st s data).1 ∈ [Error.badState, .remoteBusy, .noBuffer] ∧ (transmitI st s data).2 = s := by
  unfold transmitI
  simp only [hnone]
  split_ifs
  · exact ⟨by simp, rfl⟩
  · exact ⟨by simp, rfl⟩
  · exact ⟨by simp, rfl⟩

/-- Every call, with whatever arguments. -/
theorem Windowless.call (hnone : st.txWindow = none) (hkeeps : st.platform.Keeps Windowless) (h : Windowless s)
    (call : Call) : Windowless (call.run st s) := by
  by_cases hin : ∃ bytes, call = .dataIn bytes
  · obtain ⟨bytes, rfl⟩ := hin
    have hchunk := h.rxBytes hnone hkeeps bytes
    have hrun : Call.run st s (.dataIn bytes) = AtcHdlc.rxBytes st s bytes := by
      rw [Call.run, dataIn, retransmitIfPending, hchunk.pending, if_neg Bool.false_ne_true]
    rw [hrun]
    exact hchunk
  by_cases hsend : ∃ data, call = .transmitI data
  · obtain ⟨data, rfl⟩ := hsend
    have hrun : Call.run st s (.transmitI data) = s := (transmitI_windowless hnone s data).2
    rw [hrun]
    exact h
  · push Not at hin hsend
    have hlegal : call.Legal := by
      cases call with
      | transmitI data => exact absurd rfl (hsend data)
      | _ => trivial
    exact (Call.deeds st s hlegal hin).induct (fun _ _ hd ht => ht.deed hkeeps hsend hd) h

theorem Windowless.run (hnone : st.txWindow = none) (hkeeps : st.platform.Keeps Windowless) (h : Windowless s)
    (calls : List Call) : Windowless (calls.foldl (Call.run st) s) := by
  induction calls generalizing s with
  | nil => exact h
  | cons call calls ih => exact ih (h.call hnone hkeeps call)

end Windowless

/-- Callbacks that use nothing but the interface use no window that is not there. The induction is on how
deep they nest. -/
theorem Interfaced.keeps {st : Station} (hnone : st.txWindow = none) {p : Platform} (h : Interfaced st p) :
    p.Keeps Windowless := by
  induction h with
  | passive hp =>
      constructor
      · intro f hf payload s hs
        rwa [hp.1 f hf]
      · intro f hf event s hs
        rwa [hp.2 f hf]
  | nested inner calls _ hdata hevent ih =>
      constructor
      · intro f hf payload s hs
        rw [hdata f hf]
        exact @Windowless.run { st with platform := inner (.data payload) s } s hnone (ih _ s) hs _
      · intro f hf event s hs
        rw [hevent f hf]
        exact @Windowless.run { st with platform := inner (.event event) s } s hnone (ih _ s) hs _

/-- Without a window no run of calls, with any chunks and any nested calls, moves V(S) or V(A), leaves a
retransmission armed or uses a window, and `atc_hdlc_transmit_i` refuses before it does. -/
theorem windowless_untouched {params : Params} {mem : Memory} {st : Station} {s : Ctx}
    (hinit : init params mem = .ok (st, s)) (hnone : params.txWindow = none)
    (hcallbacks : Interfaced st st.platform) (calls : List Call) :
    let t := calls.foldl (Call.run st) s
    t.vs = 0 ∧ t.va = 0 ∧ t.retransmitPending = false ∧ (∀ o ∈ t.trace, ¬UsesWindow o) ∧
      ∀ data, (transmitI st t data).1 ∈ [Error.badState, .remoteBusy, .noBuffer] := by
  intro t
  obtain ⟨hstart, -, hwindow, -⟩ := init_station hinit
  have habsent : st.txWindow = none := by
    rw [hnone] at hwindow
    exact Option.map_eq_none_iff.mp hwindow.symm
  have hbegin : Windowless s := by
    rw [hstart]
    exact .init st mem
  have hend : Windowless t := hbegin.run habsent (hcallbacks.keeps habsent) calls
  exact ⟨hend.vs, hend.va, hend.pending, hend.unused, fun data => (transmitI_windowless habsent t data).1⟩

/-- The mock set-up without a window. -/
def bareStation : Station :=
  { mockStation 0x01 3 threeSlots_pos threeSlots_le with
    txWindow := none
    slotCapacity_min := by simp }

/-- An application that sends back what it is told. -/
def echoPlatform : Platform :=
  { mockPlatform with onData := some fun payload s => Call.run bareStation s (.transmitI (.octets payload)) }

/-- The calls nested in a callback of that application. -/
def echoCalls : Obs → List Call
  | .data payload => [.transmitI (.octets payload)]
  | _ => []

def echoParams : Params :=
  ⟨some bareStation.config, some ⟨true, echoPlatform⟩, none, some ⟨true, 16384⟩, none⟩

theorem echoPlatform_interfaced (st : Station) (hst : { st with platform := mockPlatform } = bareStation) :
    Interfaced st echoPlatform := by
  refine .nested (fun _ _ => mockPlatform) (fun o _ => echoCalls o)
    (fun _ _ => .passive mockPlatform_passive) ?_ ?_
  · intro f hf payload s
    cases hf
    rw [hst]
    rfl
  · intro f hf event s
    cases hf
    rfl

/-- A peer that acknowledges what was never sent, in an I-frame, in a REJ and in an RR with the final bit,
and a T1 that expires. -/
theorem windowless_untouched_echo :
    let calls : List Call := [.dataIn (Frame.octets crcOpsDefault ⟨0x01, uCtrl uSabm true, []⟩ ++
        Frame.octets crcOpsDefault ⟨0x01, iCtrl 0 0 true, [0x11]⟩ ++
        Frame.octets crcOpsDefault ⟨0x01, sCtrl sRej 5 false, []⟩),
      .linkReset, .t1Expired,
      .dataIn (Frame.octets crcOpsDefault ⟨0x00, uCtrl uUa true, []⟩ ++
        Frame.octets crcOpsDefault ⟨0x00, sCtrl sRr 7 true, []⟩)]
    ∃ st s, init echoParams zeroMemory = .ok (st, s) ∧
      (calls.foldl (Call.run st) s).va = 0 ∧ Obs.nullWindow ∉ (calls.foldl (Call.run st) s).trace := by
  intro calls
  refine ⟨_, _, rfl, ?_⟩
  obtain ⟨-, hva, -, hunused, -⟩ := @windowless_untouched echoParams zeroMemory _ _ rfl rfl
    (echoPlatform_interfaced _ rfl) calls
  exact ⟨hva, fun hused => hunused _ hused trivial⟩

end AtcHdlc
