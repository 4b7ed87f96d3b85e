import RemoteDebugger.Proofs.Text.Utf8

/-!
# ASCII texts

An ASCII character is one byte, its code. A text of printable characters thus has no control byte,
as little as it has a control character.
-/

namespace RemoteDebugger.Text

/-- The UTF-8 form of an ASCII text has one byte for each character. -/
theorem encode_ascii {cs : List Char} (ascii : ∀ c ∈ cs, c.toNat < 0x80) :
    encode cs = cs.map fun c => UInt8.ofNat c.toNat := by
  induction cs with
  | nil => rfl
  | cons c cs ih =>
      have one : String.utf8EncodeChar c = [UInt8.ofNat c.toNat] := by
        rw [String.utf8EncodeChar]
        exact if_pos (Nat.le_of_lt_succ (ascii c List.mem_cons_self))
      rw [encode_cons, one, ih fun d later => ascii d (List.mem_cons_of_mem c later)]
      rfl

def IsPrintable (c : Char) : Prop := 0x20 ≤ c.toNat ∧ c.toNat < 0x7F

theorem IsPrintable.ne_control {c control : Char} (printable : IsPrintable c)
    (below : control.toNat < 0x20) : c ≠ control := by
  rintro rfl
  exact absurd printable.1 (Nat.not_le.mpr below)

/-- The encoding of printable characters has no control byte. -/
theorem mem_encode_printable {cs : List Char} (printable : ∀ c ∈ cs, IsPrintable c) {b : UInt8}
    (member : b ∈ encode cs) : 0x20 ≤ b.toNat := by
  rw [encode_ascii fun c inside => by have := (printable c inside).2; omega] at member
  obtain ⟨c, inside, rfl⟩ := List.mem_map.mp member
  obtain ⟨low, high⟩ := printable c inside
  rw [toNat_ofNat (by omega)]
  exact low

end RemoteDebugger.Text
