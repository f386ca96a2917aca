import Redpine.Wire

/-! Socket addresses, and the bytes that authenticate a handshake:
`server/handshake_mac.rs`. The keyed hash function is a parameter of the server; the bytes
that it is fed determine all fields of the handshake. -/
namespace Redpine
open Machine

structure SocketAddrV4 where
  octets : Vector U8 4
  port : U16
  deriving DecidableEq

structure SocketAddrV6 where
  octets : Vector U8 16
  port : U16
  flowinfo : U32
  scopeId : U32
  deriving DecidableEq

/-- `net::SocketAddr`. -/
inductive SocketAddr
  | v4 (addr : SocketAddrV4)
  | v6 (addr : SocketAddrV6)
  deriving DecidableEq

namespace SocketAddr

/-- The bytes of the IP address. -/
def octets : SocketAddr → Bytes
  | v4 addr => addr.octets.toList
  | v6 addr => addr.octets.toList

def port : SocketAddr → U16
  | v4 addr => addr.port
  | v6 addr => addr.port

/-- Both addresses have the same IP address and port. -/
def SameEndpoint (a b : SocketAddr) : Prop := a.octets = b.octets ∧ a.port = b.port

end SocketAddr

namespace HandshakeMacHasher

/-- `Hasher::write_u16`: native byte order, which is little endian. -/
def u16LeBytes (value : U16) : Bytes := [value.setWidth 8, (value >>> 8).setWidth 8]

/-- `Hasher::write_u32`. -/
def u32LeBytes (value : U32) : Bytes :=
  [value.setWidth 8, (value >>> 8).setWidth 8, (value >>> 16).setWidth 8,
    (value >>> 24).setWidth 8]

/-- What the hash function is fed. -/
def input (senderAddr : SocketAddr) (clientNonce serverNonce serverTimestamp : U32) : Bytes :=
  senderAddr.octets ++ u16LeBytes senderAddr.port ++ u32LeBytes clientNonce ++
    u32LeBytes serverNonce ++ u32LeBytes serverTimestamp

def compute (hash : Bytes → U64) (senderAddr : SocketAddr)
    (clientNonce serverNonce serverTimestamp : U32) : U64 :=
  hash (input senderAddr clientNonce serverNonce serverTimestamp)

lemma u16LeBytes_injective : Function.Injective u16LeBytes := by
  intro a b h
  simp only [u16LeBytes, List.cons.injEq, and_true] at h
  bv_omega

lemma u32LeBytes_injective : Function.Injective u32LeBytes := by
  intro a b h
  simp only [u32LeBytes, List.cons.injEq, and_true] at h
  bv_omega

/-- The address is read back from what is hashed, and so are the nonces and the timestamp. -/
theorem input_injective {a a' : SocketAddr}
    {clientNonce clientNonce' serverNonce serverNonce' serverTimestamp serverTimestamp' : U32}
    (h : input a clientNonce serverNonce serverTimestamp =
      input a' clientNonce' serverNonce' serverTimestamp') :
    a.SameEndpoint a' ∧ clientNonce = clientNonce' ∧ serverNonce = serverNonce' ∧
      serverTimestamp = serverTimestamp' := by
  have hlen := congrArg List.length h
  simp only [input, List.length_append, u16LeBytes, u32LeBytes, List.length_cons,
    List.length_nil] at hlen
  have hoctets : a.octets.length = a'.octets.length := by omega
  unfold input at h
  obtain ⟨h, htimestamp⟩ := List.append_inj h (by simp [u16LeBytes, u32LeBytes, hoctets])
  obtain ⟨h, hserver⟩ := List.append_inj h (by simp [u16LeBytes, u32LeBytes, hoctets])
  obtain ⟨h, hclient⟩ := List.append_inj h (by simp [u16LeBytes, hoctets])
  obtain ⟨haddr, hport⟩ := List.append_inj h hoctets
  exact ⟨⟨haddr, u16LeBytes_injective hport⟩, u32LeBytes_injective hclient,
    u32LeBytes_injective hserver, u32LeBytes_injective htimestamp⟩

end HandshakeMacHasher

end Redpine
