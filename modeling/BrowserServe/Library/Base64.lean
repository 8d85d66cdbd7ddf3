import BrowserServe.Library.Text

namespace BrowserServe.Library
set_option autoImplicit true

def base64Value (c : Char) : Option Nat :=
  "ABCDEFGHIJKLMNOPQRSTUVWXYZabcdefghijklmnopqrstuvwxyz0123456789+/".toList.findIdx? (· = c)

/-- Reads base64 with its padding; the bits that a padded end does not use must be zero. -/
def fromBase64 : Text → Option (List UInt8)
  | [] => some []
  | [a, b, '=', '='] => do
    let x ← base64Value a
    let y ← base64Value b
    if y % 16 = 0 then return [.ofNat (x * 4 + y / 16)] else none
  | [a, b, c, '='] => do
    let x ← base64Value a
    let y ← base64Value b
    let z ← base64Value c
    if z % 4 = 0 then
      return [.ofNat (x * 4 + y / 16), .ofNat (y % 16 * 16 + z / 4)]
    else none
  | a :: b :: c :: d :: t => do
    let x ← base64Value a
    let y ← base64Value b
    let z ← base64Value c
    let w ← base64Value d
    let bytes ← fromBase64 t
    return .ofNat (x * 4 + y / 16) :: .ofNat (y % 16 * 16 + z / 4) ::
      .ofNat (z % 4 * 64 + w) :: bytes
  | _ => none

theorem base64Value_base64Char (h : n < 64) : base64Value (base64Char n) = some n := by
  have hall : ∀ n : Fin 64, base64Value (base64Char n) = some n.val := by decide +kernel
  exact hall ⟨n, h⟩

theorem base64Char_ne_pad (h : n < 64) : base64Char n ≠ '=' := by
  have hall : ∀ n : Fin 64, base64Char n ≠ '=' := by decide +kernel
  exact hall ⟨n, h⟩

theorem fromBase64_quad (hx : x < 64) (hy : y < 64) (hz : z < 64) (hw : w < 64) (t : Text) :
    fromBase64 (base64Char x :: base64Char y :: base64Char z :: base64Char w :: t) =
      (fromBase64 t).map fun bytes => .ofNat (x * 4 + y / 16) ::
        .ofNat (y % 16 * 16 + z / 4) :: .ofNat (z % 4 * 64 + w) :: bytes := by
  rw [fromBase64]
  · simp only [base64Value_base64Char hx, base64Value_base64Char hy, base64Value_base64Char hz,
      base64Value_base64Char hw, Option.bind_eq_bind, Option.bind_some]
    cases fromBase64 t with
    | none => rfl
    | some bytes => rfl
  · intro _ hpad _
    exact base64Char_ne_pad hw hpad
  · intro hpad _
    exact base64Char_ne_pad hw hpad

theorem fromBase64_pad (hx : x < 64) (hy : y < 64) (hz : z < 64) (hspare : z % 4 = 0) :
    fromBase64 [base64Char x, base64Char y, base64Char z, '='] =
      some [.ofNat (x * 4 + y / 16), .ofNat (y % 16 * 16 + z / 4)] := by
  rw [fromBase64]
  · simp only [base64Value_base64Char hx, base64Value_base64Char hy, base64Value_base64Char hz,
      Option.bind_eq_bind, Option.bind_some, if_pos hspare]
    rfl
  · intro hpad
    exact base64Char_ne_pad hz hpad

theorem fromBase64_pads (hx : x < 64) (hy : y < 64) (hspare : y % 16 = 0) :
    fromBase64 [base64Char x, base64Char y, '=', '='] = some [.ofNat (x * 4 + y / 16)] := by
  rw [fromBase64]
  simp only [base64Value_base64Char hx, base64Value_base64Char hy, Option.bind_eq_bind,
    Option.bind_some, if_pos hspare]
  rfl

/-- Base64 reads back as the bytes it was written from. -/
theorem fromBase64_base64 (bytes : List UInt8) : fromBase64 (base64 bytes) = some bytes := by
  induction bytes using base64.induct with
  | case1 a b c bytes ih =>
    have ha := a.toNat_lt
    have hb := b.toNat_lt
    have hc := c.toNat_lt
    generalize hn : a.toNat * 65536 + b.toNat * 256 + c.toNat = n
    have h₁ : n / 262144 * 4 + n / 4096 % 64 / 16 = a.toNat := by omega
    have h₂ : n / 4096 % 64 % 16 * 16 + n / 64 % 64 / 4 = b.toNat := by omega
    have h₃ : n / 64 % 64 % 4 * 64 + n % 64 = c.toNat := by omega
    simp only [base64, hn]
    rw [fromBase64_quad (by omega) (by omega) (by omega) (by omega), ih, Option.map_some]
    simp only [h₁, h₂, h₃, UInt8.ofNat_toNat]
  | case2 a b =>
    have ha := a.toNat_lt
    have hb := b.toNat_lt
    generalize hn : a.toNat * 1024 + b.toNat * 4 = n
    have h₁ : n / 4096 * 4 + n / 64 % 64 / 16 = a.toNat := by omega
    have h₂ : n / 64 % 64 % 16 * 16 + n % 64 / 4 = b.toNat := by omega
    simp only [base64, hn]
    rw [fromBase64_pad (by omega) (by omega) (by omega) (by omega)]
    simp only [h₁, h₂, UInt8.ofNat_toNat]
  | case3 a =>
    have ha := a.toNat_lt
    generalize hn : a.toNat * 16 = n
    have h₁ : n / 64 * 4 + n % 64 / 16 = a.toNat := by omega
    simp only [base64, hn]
    rw [fromBase64_pads (by omega) (by omega) (by omega)]
    simp only [h₁, UInt8.ofNat_toNat]
  | case4 => rfl

end BrowserServe.Library
