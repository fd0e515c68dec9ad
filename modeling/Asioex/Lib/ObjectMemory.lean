import Mathlib.Logic.Basic

/-!
# Objects in a memory of cells

A memory gives each address a cell. An object type lays out its values in a fixed
number of consecutive cells, from which they can be read again, and asks for an
alignment. A stored object is read back as long as its own cells are kept, and two
objects whose cells do not overlap do not disturb each other.

Padding is what must be added to a size to reach the next multiple of an alignment.
Addresses and sizes are unbounded here.
-/

/-- The layout of the values of a type: how many cells, at which alignment, and with
which contents. -/
structure ObjectType (A B : Type) where
  sizeof : Nat
  alignof : Nat
  power : alignof.isPowerOfTwo
  encode : A → Fin sizeof → B
  decode : (Fin sizeof → B) → A
  decode_encode : ∀ value, decode (encode value) = value

namespace ObjectType

variable {A B : Type} (type : ObjectType A B)

/-- Write a value's contents from an address on. -/
def store (memory : Nat → B) (address : Nat) (value : A) : Nat → B := fun cell =>
  if inside : address ≤ cell ∧ cell < address + type.sizeof then
    type.encode value ⟨cell - address, by omega⟩
  else memory cell

/-- Read a value from the cells from an address on. -/
def load (memory : Nat → B) (address : Nat) : A :=
  type.decode (fun offset => memory (address + offset))

theorem alignof_pos : 0 < type.alignof := Nat.pos_of_isPowerOfTwo type.power

/-- A store changes no cell but the object's own. -/
theorem store_apart (memory : Nat → B) (address : Nat) (value : A) (cell : Nat)
    (apart : cell < address ∨ address + type.sizeof ≤ cell) :
    type.store memory address value cell = memory cell := by
  have outside : ¬(address ≤ cell ∧ cell < address + type.sizeof) := by omega
  exact dif_neg outside

/-- What was stored is read back. -/
theorem load_store (memory : Nat → B) (address : Nat) (value : A) :
    type.load (type.store memory address value) address = value := by
  have contents : (fun offset : Fin type.sizeof =>
      type.store memory address value (address + offset)) = type.encode value := by
    funext offset
    have inside : address ≤ address + offset ∧ address + offset < address + type.sizeof := by omega
    rw [store, dif_pos inside]
    congr 1
    exact Fin.ext (Nat.add_sub_cancel_left address offset)
  rw [load, contents, type.decode_encode]

/-- A value is determined by the cells it lies in. -/
theorem load_congr {memory later : Nat → B} {address : Nat}
    (kept : ∀ cell, address ≤ cell → cell < address + type.sizeof → later cell = memory cell) :
    type.load later address = type.load memory address := by
  have contents : (fun offset : Fin type.sizeof => later (address + offset)) =
      fun offset : Fin type.sizeof => memory (address + offset) :=
    funext fun offset => kept _ (by omega) (by omega)
  rw [load, load, contents]

/-- How far a size is from the next multiple of the alignment. -/
def padding (size : Nat) : Nat :=
  if size % type.alignof ≠ 0 then type.alignof - size % type.alignof else 0

/-- A padded size is a multiple of the alignment. -/
theorem dvd_add_padding (size : Nat) : type.alignof ∣ size + type.padding size := by
  have below : size % type.alignof < type.alignof := Nat.mod_lt size type.alignof_pos
  by_cases exact : size % type.alignof = 0
  · rw [padding, if_neg (not_not_intro exact)]
    exact Nat.dvd_of_mod_eq_zero exact
  · rw [padding, if_pos exact]
    have whole : size + (type.alignof - size % type.alignof) =
        type.alignof * (size / type.alignof) + type.alignof := by
      have split := Nat.div_add_mod size type.alignof
      omega
    rw [whole]
    exact Nat.dvd_add (Nat.dvd_mul_right _ _) (Nat.dvd_refl _)

/-- Behind a padded size from a base on, an address is aligned exactly when the base is. -/
theorem dvd_base_iff (base size : Nat) :
    type.alignof ∣ base + size + type.padding size ↔ type.alignof ∣ base := by
  rw [Nat.add_assoc]
  exact (Nat.dvd_add_iff_left (type.dvd_add_padding size)).symm

end ObjectType
