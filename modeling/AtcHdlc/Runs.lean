import AtcHdlc.Parser

/-! Runs of one station: every public call of `hdlc.h`, with every argument that a caller may give it,
and every received chunk, in any order. -/

namespace AtcHdlc

/-- A call of the public interface after `atc_hdlc_init`; the query `atc_hdlc_get_state` changes
nothing and is left out. -/
inductive Call where
  | t1Expired
  | t2Expired
  | linkSetup (peerAddr : UInt8)
  | disconnect
  | linkReset
  | abort
  | setLocalBusy (busy : Bool)
  | dataIn (bytes : List UInt8)
  | transmitUi (address : UInt8) (data : Payload)
  | transmitTest (address : UInt8) (data : Payload)
  | transmitI (data : Payload)
  | transmitUiStart (address : UInt8)
  | transmitUiData (data : Payload)
  | transmitUiEnd

namespace Call

/-- The caller's obligation: no length without data. -/
def Legal : Call → Prop
  | transmitI data => data.NonNull
  | _ => True

/-- The context that a call leaves. -/
def run (st : Station) (s : Ctx) : Call → Ctx
  | t1Expired => AtcHdlc.t1Expired st s
  | t2Expired => AtcHdlc.t2Expired st s
  | linkSetup peerAddr => (AtcHdlc.linkSetup st s peerAddr).2
  | disconnect => (AtcHdlc.disconnect st s).2
  | linkReset => (AtcHdlc.linkReset st s).2
  | abort => AtcHdlc.abort st s
  | setLocalBusy busy => (AtcHdlc.setLocalBusy st s busy).2
  | dataIn bytes => AtcHdlc.dataIn st s bytes
  | transmitUi address data => (AtcHdlc.transmitUi st s address data).2
  | transmitTest address data => (AtcHdlc.transmitTest st s address data).2
  | transmitI data => (AtcHdlc.transmitI st s data).2
  | transmitUiStart address => AtcHdlc.transmitUiStart st s address
  | transmitUiData data => AtcHdlc.transmitUiData st s data
  | transmitUiEnd => AtcHdlc.transmitUiEnd s

instance (call : Call) : Decidable call.Legal :=
  match call with
  | .transmitI _ => inferInstanceAs (Decidable (_ ∨ _))
  | .t1Expired | .t2Expired | .linkSetup _ | .disconnect | .linkReset | .abort | .setLocalBusy _
  | .dataIn _ | .transmitUi _ _ | .transmitTest _ _ | .transmitUiStart _ | .transmitUiData _
  | .transmitUiEnd => .isTrue trivial

end Call

/-- The contexts that a station can be in between two calls. -/
inductive Reachable (st : Station) (mem : Memory) : Ctx → Prop where
  | init : Reachable st mem (initCtx st mem)
  | call {s : Ctx} (call : Call) (hs : Reachable st mem s) (hlegal : call.Legal) :
      Reachable st mem (call.run st s)

/-- What holds after initialisation and what every call keeps holds between all calls. -/
theorem Reachable.invariant {st : Station} {mem : Memory} {P : Ctx → Prop}
    (hinit : P (initCtx st mem)) (hcall : ∀ s, P s → ∀ call : Call, call.Legal → P (call.run st s))
    {s : Ctx} (h : Reachable st mem s) : P s := by
  induction h with
  | init => exact hinit
  | call call _ hlegal ih => exact hcall _ ih call hlegal

/-- The contexts of the runs whose calls all meet a condition. -/
inductive ReachableBy (st : Station) (mem : Memory) (K : Ctx → Call → Prop) : Ctx → Prop where
  | init : ReachableBy st mem K (initCtx st mem)
  | call {s : Ctx} (call : Call) (hs : ReachableBy st mem K s) (hlegal : call.Legal) (hK : K s call) :
      ReachableBy st mem K (call.run st s)

theorem ReachableBy.reachable {st : Station} {mem : Memory} {K : Ctx → Call → Prop} {s : Ctx}
    (h : ReachableBy st mem K s) : Reachable st mem s := by
  induction h with
  | init => exact .init
  | call call _ hlegal _ ih => exact .call call ih hlegal

theorem Reachable.foldl {st : Station} {mem : Memory} {s : Ctx} (h : Reachable st mem s)
    {calls : List Call} (hlegal : ∀ call ∈ calls, call.Legal) :
    Reachable st mem (calls.foldl (Call.run st) s) := by
  induction calls generalizing s with
  | nil => exact h
  | cons call calls ih =>
      exact ih (.call call h (hlegal call List.mem_cons_self)) fun c hc =>
        hlegal c (List.mem_cons_of_mem call hc)

/-- Every call of a list meets a condition when its turn comes. -/
def Along (st : Station) (K : Ctx → Call → Prop) : Ctx → List Call → Prop
  | _, [] => True
  | s, call :: calls => K s call ∧ Along st K (call.run st s) calls

instance (st : Station) (K : Ctx → Call → Prop) [∀ s call, Decidable (K s call)] (s : Ctx)
    (calls : List Call) : Decidable (Along st K s calls) := by
  induction calls generalizing s with
  | nil => exact .isTrue trivial
  | cons call calls ih => exact @instDecidableAnd _ _ _ (ih _)

theorem ReachableBy.foldl {st : Station} {mem : Memory} {K : Ctx → Call → Prop} {s : Ctx}
    (h : ReachableBy st mem K s) {calls : List Call} (hlegal : ∀ call ∈ calls, call.Legal)
    (hK : Along st K s calls) : ReachableBy st mem K (calls.foldl (Call.run st) s) := by
  induction calls generalizing s with
  | nil => exact h
  | cons call calls ih =>
      exact ih (.call call h (hlegal call List.mem_cons_self) hK.1)
        (fun c hc => hlegal c (List.mem_cons_of_mem call hc)) hK.2

/-- A run of the mock set-up with three slots. -/
def mockRun (calls : List Call) : Ctx :=
  calls.foldl (Call.run (mockStation 0x01 3 threeSlots_pos threeSlots_le))
    (initCtx (mockStation 0x01 3 threeSlots_pos threeSlots_le) zeroMemory)

theorem mockRun_reachable {calls : List Call} (hlegal : ∀ call ∈ calls, call.Legal) :
    Reachable (mockStation 0x01 3 (by decide) (by decide)) zeroMemory (mockRun calls) :=
  Reachable.init.foldl hlegal

section RxBytes

variable {st : Station}

/-- What the parser's own fields do not matter for and the handling of every frame keeps, a chunk
keeps up to the retransmission at its end; `Q` is what holds while a frame is handled. -/
theorem rxBytes_induct {P : Ctx → Prop} {Q : UInt8 → Ctx → Prop}
    (hparser : ∀ s t, P s → P (s.withParser t))
    (hdispatch : ∀ s address ctrl info, P s → Q ctrl (s.log (.dispatch address ctrl info)))
    (heffect : ∀ ctrl s s', Effect st ctrl s s' → Q ctrl s → Q ctrl s')
    (hdone : ∀ ctrl s, Q ctrl s → P s) {s : Ctx} (hs : P s) (bytes : List UInt8) :
    P (rxBytes st s bytes) := by
  induction bytes generalizing s with
  | nil => exact hs
  | cons byte bytes ih =>
      refine ih ?_
      by_cases hbyte : byte = flag
      · subst hbyte
        rcases @rxByte_flag_cases st s with h | ⟨address, ctrl, info, h⟩
        · rw [h]
          exact hparser s (rxRestart s .addr) hs
        · rw [h]
          have hhandled : Q ctrl (dispatchFrame st s address ctrl info) :=
            (dispatchFrame_effects st ctrl s address info).induct (heffect ctrl)
              (hdispatch s address ctrl info hs)
          exact hparser _ (rxRestart (dispatchFrame st s address ctrl info) .addr)
            (hdone ctrl _ hhandled)
      · rw [rxByte_withParser s hbyte]
        exact hparser s _ hs

end RxBytes

end AtcHdlc
