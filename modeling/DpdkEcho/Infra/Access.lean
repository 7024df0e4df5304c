import DpdkEcho.Infra.Memory

/-!
# Computations that record what they access

`Access α` is a computation on a buffer that leaves a record of the ranges it has read and
written. What it computes and what it touches are separate questions: `value` and `mem` answer the
first and do not mention the record, `InBounds` asks the second and goes through a computation
step by step (`inBounds_bind`).
-/

namespace Infra

/-- The `len` bytes from `off` on. -/
structure Span where
  off : Nat
  len : Nat
deriving DecidableEq, Repr

/-- A computation on memory, with the ranges it has accessed. -/
def Access (α : Type) : Type := Mem → α × Mem × List Span

namespace Access

variable {α β : Type}

instance : Monad Access where
  pure a := fun m => (a, m, [])
  bind x f := fun m =>
    let (a, m, spans) := x m
    let (b, m, spans') := f a m
    (b, m, spans ++ spans')

/-- Read `len` bytes at `off`. -/
def read (off len : Nat) (get : Mem → α) : Access α := fun m => (get m, m, [⟨off, len⟩])

/-- Write `len` bytes at `off`. -/
def write (off len : Nat) (set : Mem → Mem) : Access Unit := fun m => ((), set m, [⟨off, len⟩])

/-- The result. -/
def value (x : Access α) (m : Mem) : α := (x m).1

/-- The memory afterwards. -/
def mem (x : Access α) (m : Mem) : Mem := (x m).2.1

/-- The ranges accessed, in order. -/
def spans (x : Access α) (m : Mem) : List Span := (x m).2.2

/-- No access goes past `dataLen`. -/
def InBounds (x : Access α) (m : Mem) (dataLen : Nat) : Prop :=
  ∀ s ∈ x.spans m, s.off + s.len ≤ dataLen

section
variable (x : Access α) (f : α → Access β) (m : Mem) (n off len : Nat)

@[simp] theorem value_pure (a : α) : value (pure a) m = a := rfl

@[simp] theorem value_bind : value (x >>= f) m = value (f (x.value m)) (x.mem m) := rfl

@[simp] theorem mem_bind : mem (x >>= f) m = mem (f (x.value m)) (x.mem m) := rfl

@[simp] theorem value_read (get : Mem → α) : value (read off len get) m = get m := rfl

@[simp] theorem mem_read (get : Mem → α) : mem (read off len get) m = m := rfl

@[simp] theorem inBounds_pure (a : α) : InBounds (pure a) m n ↔ True :=
  iff_of_true (fun _ hs => absurd hs List.not_mem_nil) trivial

/-- A computation stays in bounds when its first step does, and the rest does from there. -/
@[simp] theorem inBounds_bind :
    InBounds (x >>= f) m n ↔ x.InBounds m n ∧ (f (x.value m)).InBounds (x.mem m) n := by
  constructor
  · intro h
    exact ⟨fun s hs => h s (List.mem_append_left _ hs),
      fun s hs => h s (List.mem_append_right _ hs)⟩
  · rintro ⟨hx, hf⟩ s hs
    rcases List.mem_append.mp hs with hs | hs
    · exact hx s hs
    · exact hf s hs

@[simp] theorem inBounds_read (get : Mem → α) :
    InBounds (read off len get) m n ↔ off + len ≤ n := by
  constructor
  · exact fun h => h ⟨off, len⟩ (List.mem_singleton_self _)
  · intro h s hs
    rw [List.mem_singleton.mp hs]
    exact h

/-- A write is recorded as a read is. -/
@[simp] theorem inBounds_write (set : Mem → Mem) :
    InBounds (write off len set) m n ↔ off + len ≤ n :=
  inBounds_read m n off len set

end

end Access

end Infra
