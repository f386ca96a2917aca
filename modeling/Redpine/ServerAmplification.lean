import Redpine.ServerCalls
import Redpine.ServerReply

/-! A server is of no use for flooding others. Until it has granted a request from an address, it
sends there at most a third of the bytes that it has received from there, so that datagrams
with a forged sender are not amplified. -/
namespace Redpine.ServerRun
open Machine Buffer Wire Endpoint Transition Server ServerCore

/-- The bytes received from an address. -/
def bytesFrom (addr : SocketAddr) : Action → ℕ
  | .frame _ frameBytes senderAddr => if senderAddr = addr then frameBytes.length else 0
  | _ => 0

def receivedBytes (addr : SocketAddr) (past : List (State × Action)) : ℕ :=
  (past.map fun q => bytesFrom addr q.2).sum

/-- The bytes that are sent to an address. -/
def bytesTo (addr : SocketAddr) (emission : Emission) : ℕ :=
  match emission.frame with
  | some (frameBytes, destAddr) => if destAddr = addr then frameBytes.length else 0
  | none => 0

def sentBytes (addr : SocketAddr) (emitted : List Emission) : ℕ :=
  (emitted.map (bytesTo addr)).sum

/-- The bytes of a reply of the server itself. -/
def replySize (addr : SocketAddr) : Emission → ℕ
  | .reply frameBytes destAddr => if destAddr = addr then frameBytes.length else 0
  | .host _ _ _ => 0

def repliedBytes (addr : SocketAddr) (emitted : List Emission) : ℕ :=
  (emitted.map (replySize addr)).sum

/-- What is replied is at most a third of what is received. -/
def Damped (addr : SocketAddr) (a : Action) (emissions : List Emission) : Prop :=
  3 * repliedBytes addr emissions ≤ bytesFrom addr a

section Sizes
variable {bd : Build} {hash : Bytes → U64} {addr : SocketAddr} {core core' : ServerCore}
  {emissions : List Emission} {a : Action}

lemma repliedBytes_append (addr : SocketAddr) (emitted more : List Emission) :
    repliedBytes addr (emitted ++ more) = repliedBytes addr emitted + repliedBytes addr more := by
  unfold repliedBytes
  rw [List.map_append, List.sum_append]

lemma repliedBytes_host (addr : SocketAddr) (peer : PeerRef) (addr' : SocketAddr)
    (calls : List HostCall) : repliedBytes addr (calls.map (.host peer addr')) = 0 := by
  unfold repliedBytes
  refine List.sum_eq_zero fun size hsize => ?_
  simp only [List.map_map, List.mem_map, Function.comp_apply] at hsize
  obtain ⟨call, -, rfl⟩ := hsize
  rfl

lemma repliedBytes_reply (addr : SocketAddr) (frameBytes : Bytes) (destAddr : SocketAddr) :
    repliedBytes addr [.reply frameBytes destAddr] =
      if destAddr = addr then frameBytes.length else 0 := rfl

lemma ackFrameBytes_length (ack : HandshakeAlphaAckFrame) : (ackFrameBytes ack).length = 33 := by
  unfold ackFrameBytes
  rw [frameOf_length, LawfulBlock.encode_length]
  rfl

lemma betaAckBytes_length (error : Option HandshakeErrorKind) (clientNonce : U32) :
    (betaAckBytes error clientNonce).length = 10 := by
  unfold betaAckBytes
  rw [frameOf_length, LawfulBlock.encode_length]
  rfl

lemma Damped.silent (h : repliedBytes addr emissions = 0) : Damped addr a emissions := by
  unfold Damped
  rw [h]
  exact Nat.zero_le _

/-- A reply of a third of the size of the datagram that it answers. -/
lemma Damped.reply {draws : Draws} {frameBytes ackBytes : Bytes} {senderAddr : SocketAddr}
    (h : 3 * ackBytes.length ≤ frameBytes.length) (hreplied : repliedBytes addr emissions =
      repliedBytes addr [.reply ackBytes senderAddr]) :
    Damped addr (.frame draws frameBytes senderAddr) emissions := by
  unfold Damped bytesFrom
  rw [hreplied, repliedBytes_reply]
  dsimp only
  split_ifs
  · exact h
  · exact le_rfl

lemma frameStep_damped {draws : Draws} {frameBytes : Bytes} {senderAddr : SocketAddr}
    (h : FrameStep bd hash draws core frameBytes senderAddr core' emissions) :
    Damped addr (.frame draws frameBytes senderAddr) emissions := by
  cases h with
  | ignored hnone => exact .silent rfl
  | alpha htype hread hack =>
    refine .reply ?_ rfl
    rw [hack, readAlpha_length hread]
    exact (Nat.mul_le_mul_left 3 (ackFrameBytes_length _).le).trans (by decide)
  | answered hrequest herror hack =>
    refine .reply ?_ rfl
    rw [hack, readBeta_length hrequest.2.1]
    exact (Nat.mul_le_mul_left 3 (betaAckBytes_length _ _).le).trans (by decide)
  | created hrequest hlookup hcount hprio hnew hack =>
    refine .reply ?_ (Nat.zero_add _)
    rw [hack, readBeta_length hrequest.2.1]
    exact (Nat.mul_le_mul_left 3 (betaAckBytes_length _ _).le).trans (by decide)
  | delivered htype hother hpayload hlookup hp hcall => exact .silent (repliedBytes_host ..)

lemma callPeer_damped {peer : PeerRef} {call : Endpoint → Exec (Endpoint × List HostCall)}
    (h : core.callPeer peer call = .ok (core', emissions)) : Damped addr a emissions := by
  obtain ⟨p, e, calls, hp, hcall, rfl, rfl⟩ := callPeer_eq_ok h
  exact .silent (repliedBytes_host ..)

lemma fireNext_damped {peer : PeerRef} {nowMs : ℕ} {nonces : ℕ → Bool}
    (h : core.fireNext bd nonces peer nowMs = .ok (core', emissions)) :
    Damped addr a emissions := by
  obtain ⟨p, hp, h⟩ := bind_eq_ok.mp h
  obtain ⟨⟨e, calls, action⟩, hcall, h⟩ := bind_eq_ok.mp h
  cases action with
  | «continue» =>
    cases h
    exact .silent (repliedBytes_host ..)
  | terminate =>
    cases h
    exact .silent (repliedBytes_host ..)

end Sizes

section Runs
variable {bd : Build} {hash : Bytes → U64} {addr : SocketAddr} {s s' : State} {a : Action}

/-- A step replies with at most a third of what it receives. -/
lemma Step.damped (addr : SocketAddr) (h : Step bd hash s a s') :
    ∃ emissions, s'.emitted = s.emitted ++ emissions ∧ Damped addr a emissions := by
  cases h with
  | frame hpass hclock hok => exact ⟨_, rfl, frameStep_damped (handleFrame_step hok)⟩
  | fireNext hpass hbuffer hclock hok => exact ⟨_, rfl, fireNext_damped hok⟩
  | send hhandle hclock hok => exact ⟨_, rfl, callPeer_damped hok⟩
  | enqueue hhandle hclock hok => exact ⟨_, rfl, callPeer_damped hok⟩
  | flush hhandle hclock hok => exact ⟨_, rfl, callPeer_damped hok⟩
  | disconnect hhandle hclock hok => exact ⟨_, rfl, callPeer_damped hok⟩
  | _ => exact ⟨[], (List.append_nil _).symm, .silent rfl⟩

theorem replied_le_received {past : List (State × Action)} (run : Run (system bd hash) past s)
    (addr : SocketAddr) : 3 * repliedBytes addr s.emitted ≤ receivedBytes addr past := by
  induction run with
  | init hinit =>
    obtain ⟨config, core, hbind, rfl⟩ := hinit
    exact Nat.zero_le _
  | @step past s s' a run hstep ih =>
    obtain ⟨emissions, hemitted, hdamped⟩ := hstep.damped addr
    have hreceived : receivedBytes addr (past ++ [(s, a)]) =
        receivedBytes addr past + bytesFrom addr a := by
      unfold receivedBytes
      rw [List.map_append, List.sum_append, List.map_singleton, List.sum_singleton]
    rw [hemitted, repliedBytes_append, hreceived, Nat.mul_add]
    exact Nat.add_le_add ih hdamped

/-- Only the endpoints of the peers send anything but replies. -/
lemma Traced.sentBytes_eq (h : Traced bd s) (haddr : addr ∉ s.addrs) :
    sentBytes addr s.emitted = repliedBytes addr s.emitted := by
  have hsame : ∀ emission ∈ s.emitted, bytesTo addr emission = replySize addr emission := by
    intro emission hmem
    cases h.emitted emission hmem with
    | @host peer addr' call hpeer htype =>
      have hne : addr' ≠ addr := fun heq => haddr (heq ▸ List.mem_of_getElem? hpeer)
      cases call <;> simp [bytesTo, replySize, Emission.frame, hne]
    | _ => rfl
  unfold sentBytes repliedBytes
  rw [List.map_congr_left hsame]

/-- For an address to which no request has been granted, the server holds nothing, and it sends
there at most a third of the bytes that it has received from there. Its own replies to an address
never exceed that. -/
theorem no_amplification {past : List (State × Action)} (run : Run (system bd hash) past s)
    (addr : SocketAddr) :
    3 * repliedBytes addr s.emitted ≤ receivedBytes addr past ∧
      ((∀ c ∈ s.created, c.addr ≠ addr) → (∀ p ∈ s.core.heap, p.addr ≠ addr) ∧
        3 * sentBytes addr s.emitted ≤ receivedBytes addr past) := by
  have hle := replied_le_received run addr
  refine ⟨hle, fun hcreated => ?_⟩
  have htraced := traced_reachable ⟨past, run⟩
  have haddr : addr ∉ s.addrs := by
    rw [← htraced.created_addr]
    intro hmem
    obtain ⟨c, hc, haddr⟩ := List.mem_map.mp hmem
    exact hcreated c hc haddr
  refine ⟨fun p hp heq => haddr ?_, by rwa [htraced.sentBytes_eq haddr]⟩
  obtain ⟨peer, hpeer⟩ := List.mem_iff_getElem?.mp hp
  exact heq ▸ List.mem_map_of_mem (List.mem_of_getElem? (endpoints_getElem? hpeer))

end Runs

section Sample

/-- A first request of the largest size gets an answer of 33 bytes. -/
theorem no_amplification_alpha : ∃ past s, Run (system .debug sampleHash) past s ∧
    sentBytes sampleAddr s.emitted = 33 ∧ 3 * 33 ≤ receivedBytes sampleAddr past := by
  have hrun : (((sampleStart default).bind fun s =>
      replay (next .debug sampleHash) s [sampleAlpha 100]).map fun s =>
        (s.created.map Creation.addr, sentBytes sampleAddr s.emitted)) = some ([], 33) := by
    decide +kernel
  obtain ⟨s, hreplay, hsame⟩ := Option.map_eq_some_iff.mp hrun
  obtain ⟨hcreated, hsent⟩ := Prod.mk.inj hsame
  have hstart : ∀ s, sampleStart default = some s → (system .debug sampleHash).init s :=
    fun s => sampleStart_initial
  obtain ⟨past, run, -⟩ := start_replay_run (fun _ _ _ => next_step) hstart hreplay
  have hnone : ∀ c ∈ s.created, c.addr ≠ sampleAddr := by
    rw [List.map_eq_nil_iff.mp hcreated]
    simp
  have hbound := ((no_amplification run sampleAddr).2 hnone).2
  rw [hsent] at hbound
  exact ⟨past, s, run, hsent, hbound⟩

end Sample

end Redpine.ServerRun
