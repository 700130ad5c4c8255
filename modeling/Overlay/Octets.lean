/-! Byte strings, and byte strings whose length is part of the type. Identities,
signatures and digests are the latter, so that a layout built from them has a
length that can be computed from its type. -/
namespace Overlay

abbrev Bytes := List UInt8

/-- The first `n` bytes and the rest, if there are that many. Only the first `n`
are counted. -/
def Bytes.cut? (b : Bytes) (n : Nat) : Option (Bytes × Bytes) :=
  let front := b.take n
  if front.length = n then some (front, b.drop n) else none

theorem Bytes.cut?_eq_some_iff {b front rest : Bytes} {n : Nat} :
    b.cut? n = some (front, rest) ↔ b = front ++ rest ∧ front.length = n := by
  constructor
  · intro found
    simp only [cut?] at found
    split at found
    · next whole =>
      simp only [Option.some.injEq, Prod.mk.injEq] at found
      obtain ⟨rfl, rfl⟩ := found
      exact ⟨(List.take_append_drop n b).symm, whole⟩
    · simp at found
  · rintro ⟨rfl, rfl⟩
    simp [cut?]

theorem Bytes.cut?_eq_none_iff {b : Bytes} {n : Nat} : b.cut? n = none ↔ b.length < n := by
  simp only [cut?, List.length_take]
  split <;> simp <;> omega

structure Octets (n : Nat) where
  bytes : Bytes
  length_eq : bytes.length = n
  deriving DecidableEq

namespace Octets
variable {n : Nat}

@[ext] theorem ext {a b : Octets n} (same : a.bytes = b.bytes) : a = b := by
  cases a; cases b; simp_all

@[simp] theorem length_bytes (a : Octets n) : a.bytes.length = n := a.length_eq

def ofBytes? (n : Nat) (b : Bytes) : Option (Octets n) :=
  if h : b.length = n then some ⟨b, h⟩ else none

theorem ofBytes?_eq_some_iff {b : Bytes} {a : Octets n} : ofBytes? n b = some a ↔ a.bytes = b := by
  constructor
  · intro found
    unfold ofBytes? at found
    split at found <;> simp_all [Octets.ext_iff]
  · rintro rfl
    simp [ofBytes?]

@[simp] theorem ofBytes?_bytes (a : Octets n) : ofBytes? n a.bytes = some a :=
  ofBytes?_eq_some_iff.2 rfl

def slice (b : Bytes) (start n : Nat) (inside : start + n ≤ b.length) : Octets n :=
  ⟨(b.drop start).take n, by simp; omega⟩

def firstHalf (a : Octets 64) : Octets 32 :=
  ⟨a.bytes.take 32, by rw [List.length_take, a.length_eq]; rfl⟩

def append {m : Nat} (a : Octets n) (b : Octets m) : Octets (n + m) :=
  ⟨a.bytes ++ b.bytes, by simp⟩

def zero (n : Nat) : Octets n := ⟨List.replicate n 0, by simp⟩

def xor (a b : Octets n) : Octets n :=
  ⟨List.zipWith (· ^^^ ·) a.bytes b.bytes, by simp⟩

end Octets
end Overlay
