import Akroasis.Bytes
import Akroasis.Table

/-!
# Akroasis.Directory

One directory of named files, the primitive operations a program performs on it
and the states a crash can leave behind.

A program's file-system work is given as the *list* of its primitive operations
(`FsOp`): running it to the end is `applyAll`, and stopping it anywhere is
`CrashAt` — after any number of whole operations, or inside a write with any
prefix of its bytes on disk.  Every directory fact below is a statement about
`lookup`, so proofs never look at the association list itself.  The module names
nothing of the repository.
-/

namespace Akroasis

/-- The name of a file inside its directory. -/
abbrev FileName := List Char

/-- The files of one directory with their contents. -/
abbrev Directory := Table FileName Bytes

/-! ## Primitive operations -/

/-- A primitive file-system operation.  `openAppend` is an open with
`create(true).append(true)`, `write` appends at the end of the file, and `sync`
stands for the durability calls, which change nothing a reader can see. -/
inductive FsOp where
  | create (name : FileName)
  | openAppend (name : FileName)
  | write (name : FileName) (bytes : Bytes)
  | rename (src dst : FileName)
  | sync (name : FileName)
  deriving DecidableEq

namespace FsOp

/-- What an operation does to the directory. -/
def apply (d : Directory) : FsOp → Directory
  | create n => d.insert n []
  | openAppend n => if (d.lookup n).isSome then d else d.insert n []
  | write n b => match d.lookup n with
      | some c => d.insert n (c ++ b)
      | none => d
  | rename src dst => match d.lookup src with
      | some c => (d.erase src).insert dst c
      | none => d
  | sync _ => d

/-- Run operations in order. -/
def applyAll (d : Directory) (ops : List FsOp) : Directory := ops.foldl apply d

@[simp] theorem applyAll_nil (d : Directory) : applyAll d [] = d := rfl

@[simp] theorem applyAll_cons (d : Directory) (op : FsOp) (ops : List FsOp) :
    applyAll d (op :: ops) = applyAll (op.apply d) ops := rfl

theorem applyAll_append (d : Directory) (xs ys : List FsOp) :
    applyAll d (xs ++ ys) = applyAll (applyAll d xs) ys := by
  simp [applyAll, List.foldl_append]

/-- The names whose contents an operation may change. -/
def touched : FsOp → List FileName
  | create n => [n]
  | openAppend n => [n]
  | write n _ => [n]
  | rename src dst => [src, dst]
  | sync _ => []

/-! ### lookups after one operation -/

theorem lookup_create (d : Directory) (n m : FileName) :
    AList.lookup m ((create n).apply d) = if m = n then some [] else d.lookup m :=
  Table.lookup_insert_ite d n m []

theorem lookup_openAppend (d : Directory) (n m : FileName) :
    AList.lookup m ((openAppend n).apply d) =
      if m = n then some ((d.lookup n).getD []) else d.lookup m := by
  simp only [apply]
  cases h : d.lookup n with
  | none => simpa using Table.lookup_insert_ite d n m []
  | some c =>
      by_cases hm : m = n
      · subst hm; simp [h]
      · simp [hm]

theorem lookup_write (d : Directory) (n m : FileName) (b : Bytes) :
    AList.lookup m ((write n b).apply d) =
      if m = n then (d.lookup n).map (· ++ b) else d.lookup m := by
  simp only [apply]
  cases h : d.lookup n with
  | none =>
      by_cases hm : m = n
      · subst hm; simp [h]
      · simp [hm]
  | some c => simpa using Table.lookup_insert_ite d n m (c ++ b)

theorem lookup_rename (d : Directory) (src dst m : FileName) :
    AList.lookup m ((rename src dst).apply d) =
      match d.lookup src with
      | some c => if m = dst then some c else if m = src then none else d.lookup m
      | none => d.lookup m := by
  simp only [apply]
  cases h : d.lookup src with
  | none => rfl
  | some c =>
      simp only
      rw [Table.lookup_insert_ite, Table.lookup_erase_ite]

/-- Two writes at the end of a file are one. -/
theorem write_write (d : Directory) (n : FileName) (a b : Bytes) :
    (write n b).apply ((write n a).apply d) = (write n (a ++ b)).apply d := by
  cases h : d.lookup n with
  | none => simp [apply, h]
  | some c => simp [apply, h, List.append_assoc]

/-- Frame rule: an operation leaves every name it does not touch alone. -/
theorem lookup_apply_of_not_touched (d : Directory) (op : FsOp) (m : FileName)
    (h : m ∉ op.touched) : AList.lookup m (op.apply d) = d.lookup m := by
  cases op with
  | create n => rw [lookup_create, if_neg (by simpa [touched] using h)]
  | openAppend n => rw [lookup_openAppend, if_neg (by simpa [touched] using h)]
  | write n b => rw [lookup_write, if_neg (by simpa [touched] using h)]
  | rename src dst =>
      simp only [touched, List.mem_cons, List.not_mem_nil, or_false, not_or] at h
      simp only [apply]
      cases hs : d.lookup src with
      | none => rfl
      | some c =>
          simp only
          rw [Table.lookup_insert_ite, if_neg h.2, Table.lookup_erase_ite, if_neg h.1]
  | sync n => rfl

/-- Frame rule for a whole program. -/
theorem lookup_applyAll_of_not_touched (d : Directory) (ops : List FsOp) (m : FileName)
    (h : ∀ op ∈ ops, m ∉ op.touched) : AList.lookup m (applyAll d ops) = d.lookup m := by
  induction ops generalizing d with
  | nil => rfl
  | cons op ops ih =>
      rw [applyAll_cons, ih _ fun o ho => h o (List.mem_cons_of_mem _ ho)]
      exact lookup_apply_of_not_touched d op m (h op List.mem_cons_self)

/-- What an operation does before it fails: a write may have written its first `j` bytes. -/
def partly (j : Nat) : FsOp → List FsOp
  | write n b => [write n (b.take j)]
  | _ => []

/-- A program that fails in its step `k`. -/
def failing (ops : List FsOp) (k j : Nat) : List FsOp :=
  ops.take k ++ (ops[k]?).toList.flatMap (partly j)

/-- A program that fails touches nothing the whole program does not. -/
theorem touched_failing {ops : List FsOp} {k j : Nat} {op : FsOp} (hop : op ∈ failing ops k j)
    {m : FileName} (hm : m ∈ op.touched) : ∃ o ∈ ops, m ∈ o.touched := by
  rcases List.mem_append.mp hop with hop | hop
  · exact ⟨op, List.mem_of_mem_take hop, hm⟩
  · obtain ⟨o, ho, hpart⟩ := List.mem_flatMap.mp hop
    refine ⟨o, List.mem_of_getElem? (Option.mem_toList.mp ho), ?_⟩
    cases o with
    | write n b =>
        obtain rfl := List.mem_singleton.mp hpart
        exact hm
    | _ => cases hpart

/-- A program that fails after its first part. -/
theorem failing_append (xs ys : List FsOp) (k j : Nat) :
    failing (xs ++ ys) (xs.length + k) j = xs ++ failing ys k j := by
  simp [failing, List.take_append, List.take_of_length_le, List.getElem?_append_right]

end FsOp

/-! ## Crashes -/

/-- The directories a crash can leave when `k` of the operations `ops`, run from `d`,
were done: the next one was not started, or it was a write of which any prefix reached
the disk. -/
inductive CrashAt (d : Directory) (ops : List FsOp) (k : Nat) : Directory → Prop
  | between : CrashAt d ops k (FsOp.applyAll d (ops.take k))
  | torn (name : FileName) (bytes : Bytes) (j : Nat) (h : ops[k]? = some (.write name bytes)) :
      CrashAt d ops k ((FsOp.write name (bytes.take j)).apply (FsOp.applyAll d (ops.take k)))

end Akroasis
