/-
# Reading the wire

`Cursor` and `CodecError` (`pathvector-session/src/message/mod.rs`, `message/error.rs`), and the
prefixes of `message/update.rs`. A cursor is the list of the octets not read yet; each read
returns what is left. `CodecError` is complete here; what the session task makes of it is
`CodecError.reported`.
-/
import Pathvector.Lib.Reader
import Pathvector.Session.Task

set_option autoImplicit false

namespace Pathvector.Wire

variable {rest cur bs : List UInt8} {n : ℕ}

inductive CodecError where
  | Truncated (needed available : ℕ)
  | InvalidMarker
  | InvalidLength (len : UInt16)
  | UnknownMessageType (t : UInt8)
  | UnsupportedVersion (v : UInt8)
  | UnknownAsPathSegmentType (t : UInt8)
  | InvalidOrigin (v : UInt8)
  | InvalidCapability (code : UInt8)
  | UnsupportedOptionalParameter (param_type : UInt8)
  | InvalidAttribute (type_code : UInt8) (detail : String)
  | InvalidNlri (prefix_len : UInt8)
  deriving DecidableEq

/-- The errors the session task tells apart. -/
def CodecError.reported : CodecError → Pathvector.CodecError
  | .InvalidMarker => .InvalidMarker
  | .InvalidLength len => .InvalidLength len
  | .UnknownMessageType t => .UnknownMessageType t
  | .UnsupportedOptionalParameter t => .UnsupportedOptionalParameter t
  | _ => .Other

/-! ## Octets and numbers -/

def read_u8 : List UInt8 → Except CodecError (UInt8 × List UInt8)
  | [] => .error (.Truncated 1 0)
  | b :: cur => .ok (b, cur)

/-- `read_bytes` and `fork`. -/
def read_bytes (n : ℕ) (cur : List UInt8) : Except CodecError (List UInt8 × List UInt8) :=
  if cur.length < n then .error (.Truncated n cur.length) else .ok (cur.take n, cur.drop n)

def read_u16 (cur : List UInt8) : Except CodecError (UInt16 × List UInt8) := do
  let (bs, cur) ← read_bytes 2 cur
  pure (UInt16.ofNat (be_value bs), cur)

def read_u32 (cur : List UInt8) : Except CodecError (UInt32 × List UInt8) := do
  let (bs, cur) ← read_bytes 4 cur
  pure (UInt32.ofNat (be_value bs), cur)

/-- The address with the given octets. -/
def ipv4_of_octets (bs : List UInt8) : Ipv4Addr := ⟨BitVec.ofNat 32 (be_value bs)⟩

/-- The address with the given octets. -/
def ipv6_of_octets (bs : List UInt8) : Ipv6Addr := ⟨BitVec.ofNat 128 (be_value bs)⟩

def read_ipv4addr (cur : List UInt8) : Except CodecError (Ipv4Addr × List UInt8) := do
  let (bs, cur) ← read_bytes 4 cur
  pure (ipv4_of_octets bs, cur)

theorem read_bytes_append (h : bs.length = n) (rest : List UInt8) :
    read_bytes n (bs ++ rest) = .ok (bs, rest) := by
  subst h
  have hlen : ¬ (bs ++ rest).length < bs.length := by
    rw [List.length_append]
    omega
  rw [read_bytes, if_neg hlen, List.take_left, List.drop_left]

theorem read_bytes_eq_ok (h : read_bytes n cur = .ok (bs, rest)) :
    cur = bs ++ rest ∧ bs.length = n := by
  unfold read_bytes at h
  split at h
  · cases h
  · cases h
    refine ⟨(List.take_append_drop n cur).symm, ?_⟩
    rw [List.length_take]
    omega

theorem read_u8_eq_ok {b : UInt8} (h : read_u8 cur = .ok (b, rest)) : cur = b :: rest := by
  cases cur with
  | nil => cases h
  | cons c cs =>
    cases h
    rfl

@[simp]
theorem read_u8_cons (b : UInt8) (cur : List UInt8) : read_u8 (b :: cur) = .ok (b, cur) := rfl

theorem read_u16_append (h : bs.length = 2) (rest : List UInt8) :
    read_u16 (bs ++ rest) = .ok (UInt16.ofNat (be_value bs), rest) := by
  rw [read_u16, read_bytes_append h]
  rfl

theorem read_u32_eq_ok {x : UInt32} (h : read_u32 cur = .ok (x, rest)) :
    cur = put_u32 x ++ rest := by
  obtain ⟨⟨bs, rest'⟩, hbs, hx⟩ := Reader.bind_eq_ok.1 h
  obtain ⟨rfl, hlen⟩ := read_bytes_eq_ok hbs
  cases hx
  rw [put_u32, UInt32.toNat_ofNat', be_bytes_value_mod hlen (by norm_num)]

theorem read_u16_eq_ok {x : UInt16} (h : read_u16 cur = .ok (x, rest)) :
    cur = be_bytes 2 x.toNat ++ rest := by
  obtain ⟨⟨bs, rest'⟩, hbs, hx⟩ := Reader.bind_eq_ok.1 h
  obtain ⟨rfl, hlen⟩ := read_bytes_eq_ok hbs
  cases hx
  rw [UInt16.toNat_ofNat', be_bytes_value_mod hlen (by norm_num)]

/-! ## What was written is read -/

@[simp]
theorem length_put_u32 (x : UInt32) : (put_u32 x).length = 4 := length_be_bytes ..

@[simp]
theorem length_octets (a : Ipv4Addr) : a.octets.length = 4 := length_be_bytes ..

@[simp]
theorem read_u16_be_bytes (x : UInt16) (rest : List UInt8) :
    read_u16 (be_bytes 2 x.toNat ++ rest) = .ok (x, rest) := by
  rw [read_u16_append (length_be_bytes ..), be_value_be_bytes_of_lt x.toNat_lt, UInt16.ofNat_toNat]

theorem read_u32_put_u32 (x : UInt32) (rest : List UInt8) :
    read_u32 (put_u32 x ++ rest) = .ok (x, rest) := by
  have hvalue : be_value (put_u32 x) = x.toNat := be_value_be_bytes_of_lt x.toNat_lt
  rw [read_u32, read_bytes_append (length_put_u32 x), Reader.ok_bind]
  dsimp only
  rw [hvalue, UInt32.ofNat_toNat]
  rfl

theorem octets_ipv4_of_octets (h : bs.length = 4) : (ipv4_of_octets bs).octets = bs := by
  show be_bytes 4 (BitVec.ofNat 32 (be_value bs)).toNat = bs
  rw [BitVec.toNat_ofNat, be_bytes_value_mod h (by norm_num)]

theorem octets_ipv6_of_octets (h : bs.length = 16) : (ipv6_of_octets bs).octets = bs := by
  show be_bytes 16 (BitVec.ofNat 128 (be_value bs)).toNat = bs
  rw [BitVec.toNat_ofNat, be_bytes_value_mod h (by norm_num)]

theorem read_ipv4addr_eq_ok {a : Ipv4Addr} (h : read_ipv4addr cur = .ok (a, rest)) :
    cur = a.octets ++ rest := by
  obtain ⟨⟨bs, rest'⟩, hbs, ha⟩ := Reader.bind_eq_ok.1 h
  obtain ⟨rfl, hlen⟩ := read_bytes_eq_ok hbs
  cases ha
  rw [octets_ipv4_of_octets hlen]

end Pathvector.Wire
