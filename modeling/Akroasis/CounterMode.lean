import Akroasis.Bytes

/-!
# Akroasis.CounterMode

Counter mode over a 16-byte block function with a little-endian 128-bit counter: block
`j` of the keystream is the image of the nonce, read as an integer, plus `j`.

Two messages use disjoint counter blocks exactly when the integer intervals that start
at their nonces do not meet (`disjoint_counterBlocks_iff`).  The module names nothing of
the repository.
-/

namespace Akroasis.CounterMode

/-- A cipher block. -/
abbrev Block := FixedBytes 16

/-- Block `j` of the counter that starts at `nonce`. -/
def counterBlock (nonce : Block) (j : Nat) : Block :=
  ⟨leBytes 16 (ofLeBytes nonce.val + j), by simp⟩

/-- The number of blocks `len` bytes take. -/
def blockCount (len : Nat) : Nat := (len + 15) / 16

/-- The counter blocks that encrypt `len` bytes. -/
def counterBlocks (nonce : Block) (len : Nat) : List Block :=
  (List.range (blockCount len)).map (counterBlock nonce)

/-- The keystream for `len` bytes. -/
def keystream (cipher : Block → Block) (nonce : Block) (len : Nat) : Bytes :=
  (counterBlocks nonce len).flatMap fun b => (cipher b).val

/-- Encrypts or decrypts `data`. -/
def applyKeystream (cipher : Block → Block) (nonce : Block) (data : Bytes) : Bytes :=
  List.zipWith (· ^^^ ·) data (keystream cipher nonce data.length)

theorem blockCount_pos {len : Nat} (h : 0 < len) : 0 < blockCount len := by
  unfold blockCount; omega

theorem blockCount_le_one {len : Nat} : blockCount len ≤ 1 ↔ len ≤ 16 := by
  unfold blockCount; omega

/-- Below the wrap-around, counter blocks are integers. -/
theorem ofLeBytes_counterBlock {nonce : Block} {j : Nat} (h : ofLeBytes nonce.val + j < 256 ^ 16) :
    ofLeBytes (counterBlock nonce j).val = ofLeBytes nonce.val + j :=
  ofLeBytes_leBytes h

/-- A counter that starts lower keeps clear of a later one exactly when it ends before the
later one starts. -/
theorem disjoint_counterBlocks_iff {a b : Block} {m n : Nat}
    (hlt : ofLeBytes a.val < ofLeBytes b.val)
    (ha : ofLeBytes a.val + blockCount m ≤ 256 ^ 16)
    (hb : ofLeBytes b.val + blockCount n ≤ 256 ^ 16) (hn : 0 < n) :
    (counterBlocks a m).Disjoint (counterBlocks b n) ↔
      ofLeBytes a.val + blockCount m ≤ ofLeBytes b.val := by
  have hpos := blockCount_pos hn
  constructor
  · intro hdis
    by_contra hover
    -- the first block of the later counter is one of the earlier one's
    have hshared : counterBlock a (ofLeBytes b.val - ofLeBytes a.val) = counterBlock b 0 := by
      simp only [counterBlock, Nat.add_zero]
      congr 2
      omega
    refine hdis (a := counterBlock b 0) ?_ ?_
    · rw [← hshared]
      exact List.mem_map.mpr ⟨_, List.mem_range.mpr (by omega), rfl⟩
    · exact List.mem_map.mpr ⟨0, List.mem_range.mpr hpos, rfl⟩
  · intro hle x hxa hxb
    obtain ⟨i, hi, rfl⟩ := List.mem_map.mp hxa
    obtain ⟨j, hj, heq⟩ := List.mem_map.mp hxb
    rw [List.mem_range] at hi hj
    have hval := congrArg (fun x : Block => ofLeBytes x.val) heq
    rw [ofLeBytes_counterBlock (by omega), ofLeBytes_counterBlock (by omega)] at hval
    omega

end Akroasis.CounterMode
