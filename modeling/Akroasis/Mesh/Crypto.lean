import Akroasis.CounterMode
import Akroasis.Mesh.Proto

/-!
# Akroasis.Mesh.Crypto

Packet encryption (`crypto.rs`): the nonce layout

```
packet_id (8, little endian) || from_node (4, little endian) || 0 0 0 0
```

the resolution of a channel's PSK and `encrypt`.  The AES block function is a parameter;
`Ctr128LE` is `CounterMode` over it.
-/

namespace Akroasis.Mesh

open CounterMode

/-- The AES block function, by key. -/
abbrev Aes := Bytes → Block → Block

/-- `DEFAULT_PSK`. -/
def defaultPsk : Bytes :=
  [0xd4, 0xf1, 0xbb, 0x3a, 0x20, 0x29, 0x07, 0x59, 0xf0, 0xbc, 0xff, 0xab, 0xcf, 0x4e, 0x69, 0x01]

/-- `build_nonce`. -/
def buildNonce (packetId fromNode : UInt32) : Block :=
  ⟨leBytes 8 packetId.toNat ++ leBytes 4 fromNode.toNat ++ [0, 0, 0, 0], by simp⟩

/-- What a channel's PSK bytes resolve to. -/
inductive PskResolution where
  | unencrypted
  | key (key : Bytes)
  | undefined (len : Nat)
  deriving DecidableEq

/-- `AES128_KEY_LEN`. -/
def aes128KeyLen : Nat := 16

/-- `AES256_KEY_LEN`. -/
def aes256KeyLen : Nat := 32

/-- `resolve_psk`. -/
def resolvePsk (psk : Bytes) : PskResolution :=
  match psk with
  | [] => .unencrypted
  | [n] =>
      if 1 ≤ n ∧ n ≤ 10 then .key (defaultPsk.set 15 n)
      else .undefined 1
  | psk =>
      if psk.length = aes128KeyLen ∨ psk.length = aes256KeyLen then .key psk
      else .undefined psk.length

section

variable (aes : Aes)

/-- `apply_aes_ctr`.  The cipher's constructor checks nothing but the two lengths. -/
def applyAesCtr (data : Bytes) (packetId fromNode : UInt32) (key : Bytes) :
    Except Error Bytes :=
  if key.length = 16 ∨ key.length = 32 then
    .ok (applyKeystream (aes key) (buildNonce packetId fromNode) data)
  else .error (.encryption s!"invalid PSK length {key.length}: must be 16 or 32 bytes")

/-- `encrypt`. -/
def encrypt (plaintext : Bytes) (packetId fromNode : UInt32) (psk : Bytes) :
    Except Error Bytes :=
  match resolvePsk psk with
  | .key key => applyAesCtr aes plaintext packetId fromNode key
  | .unencrypted => .ok plaintext
  | .undefined len => .error (.encryption s!"channel PSK is {len} bytes, which defines no key")

end

/-- The counter of a packet starts at its id, below the sender's number. -/
theorem ofLeBytes_buildNonce (packetId fromNode : UInt32) :
    ofLeBytes (buildNonce packetId fromNode).val = packetId.toNat + 2 ^ 64 * fromNode.toNat := by
  have hid : packetId.toNat < 256 ^ 8 := Nat.lt_trans packetId.toNat_lt (by decide)
  have hfrom : fromNode.toNat < 256 ^ 4 := Nat.lt_of_lt_of_eq fromNode.toNat_lt (by decide)
  have hzero : ofLeBytes [0, 0, 0, 0] = 0 := by decide
  change ofLeBytes (leBytes 8 packetId.toNat ++ leBytes 4 fromNode.toNat ++ [0, 0, 0, 0]) = _
  rw [List.append_assoc, ofLeBytes_append, ofLeBytes_append, hzero, length_leBytes,
    ofLeBytes_leBytes hid, ofLeBytes_leBytes hfrom]
  omega

/-- A key that a PSK resolves to has a length AES takes. -/
theorem length_of_resolvePsk {psk key : Bytes} (h : resolvePsk psk = .key key) :
    key.length = 16 ∨ key.length = 32 := by
  unfold resolvePsk at h
  split at h
  · cases h
  · split at h
    · obtain rfl := PskResolution.key.inj h
      left; rw [List.length_set]; decide
    · cases h
  · split at h
    · next hlen =>
      obtain rfl := PskResolution.key.inj h
      exact hlen
    · cases h

/-- Under a PSK that is not empty, either every plaintext is encrypted or none is. -/
theorem encrypt_cases {psk : Bytes} (hne : psk ≠ []) :
    (∃ key, resolvePsk psk = .key key ∧ ∀ aes plaintext packetId fromNode,
      encrypt aes plaintext packetId fromNode psk =
        .ok (applyKeystream (aes key) (buildNonce packetId fromNode) plaintext)) ∨
    (∀ aes plaintext packetId fromNode, ∃ e,
      encrypt aes plaintext packetId fromNode psk = .error e) := by
  cases hr : resolvePsk psk with
  | unencrypted =>
      unfold resolvePsk at hr
      split at hr
      · contradiction
      · split at hr <;> cases hr
      · split at hr <;> cases hr
  | key key =>
      refine .inl ⟨key, rfl, fun aes plaintext packetId fromNode => ?_⟩
      simp only [encrypt, hr, applyAesCtr, if_pos (length_of_resolvePsk hr)]
  | undefined len =>
      refine .inr fun aes plaintext packetId fromNode => ?_
      simp only [encrypt, hr]
      exact ⟨_, rfl⟩

end Akroasis.Mesh
