import IndySdk.CryptoService
import IndySdk.Positional

/-!
# Base58

The laws of the base58 library: encoding and decoding are inverses, and the alphabet has neither the
mark of an abbreviated key nor the colon before a key type. A 32 byte key that begins with the DID
is abbreviated to the mark and the text of its other half, and either text stands for the key.
-/

namespace IndySdk.Crypto

open Outcome List

structure LawfulBase58 where
  base58 : Base58
  decode_encode : ∀ b, base58.fromBase58 (base58.toBase58 b) = .ok b
  encode_decode : ∀ s b, base58.fromBase58 s = .ok b → base58.toBase58 b = s
  alphabet : ∀ b, ∀ c ∈ (base58.toBase58 b).toList, c ≠ '~' ∧ c ≠ ':'

/-! ### The codec of the library -/

def base58Alphabet : List Char :=
  "123456789ABCDEFGHJKLMNPQRSTUVWXYZabcdefghijkmnopqrstuvwxyz".toList

def base58Char (d : ℕ) : Char := base58Alphabet.getD d '1'

def base58Digits (s : String) : List ℕ := s.toList.map (fun c => base58Alphabet.idxOf c)

def rustBase58 : Base58 where
  fromBase58 s :=
    if s.toList.all (fun c => c ∈ base58Alphabet) then
      let bytes := Positional.rebase 58 256 (base58Digits s)
      .ok (bytes.map UInt8.ofNat)
    else .error "Invalid base58 character"
  toBase58 b := String.ofList ((Positional.rebase 256 58 (b.map UInt8.toNat)).map base58Char)

theorem base58Alphabet_eq : base58Alphabet =
    ['1', '2', '3', '4', '5', '6', '7', '8', '9', 'A', 'B', 'C', 'D', 'E', 'F', 'G', 'H', 'J', 'K',
      'L', 'M', 'N', 'P', 'Q', 'R', 'S', 'T', 'U', 'V', 'W', 'X', 'Y', 'Z', 'a', 'b', 'c', 'd', 'e',
      'f', 'g', 'h', 'i', 'j', 'k', 'm', 'n', 'o', 'p', 'q', 'r', 's', 't', 'u', 'v', 'w', 'x', 'y',
      'z'] :=
  String.toList_ofList

theorem base58Alphabet_nodup : base58Alphabet.Nodup := by
  refine Nodup.of_map Char.toNat ?_
  rw [base58Alphabet_eq]
  decide

theorem base58Char_eq_getElem {d : ℕ} (hd : d < 58) : ∃ h : d < base58Alphabet.length,
    base58Char d = base58Alphabet[d] := by
  have hlength : d < base58Alphabet.length := by
    rw [base58Alphabet_eq]
    exact hd
  refine ⟨hlength, ?_⟩
  rw [base58Char, getD_eq_getElem?_getD, getElem?_eq_getElem hlength, Option.getD_some]

theorem base58Char_mem {d : ℕ} (hd : d < 58) : base58Char d ∈ base58Alphabet := by
  obtain ⟨hlength, hchar⟩ := base58Char_eq_getElem hd
  rw [hchar]
  exact getElem_mem hlength

theorem idxOf_base58Char {d : ℕ} (hd : d < 58) : base58Alphabet.idxOf (base58Char d) = d := by
  obtain ⟨hlength, hchar⟩ := base58Char_eq_getElem hd
  rw [hchar, base58Alphabet_nodup.idxOf_getElem]

theorem base58Char_idxOf {c : Char} (hc : c ∈ base58Alphabet) :
    base58Char (base58Alphabet.idxOf c) = c := by
  have hlength := idxOf_lt_length_of_mem hc
  rw [base58Char, getD_eq_getElem?_getD, getElem?_eq_getElem hlength, Option.getD_some,
    getElem_idxOf]

theorem idxOf_lt {c : Char} (hc : c ∈ base58Alphabet) : base58Alphabet.idxOf c < 58 := by
  have hlength : base58Alphabet.length = 58 := by
    rw [base58Alphabet_eq]
    rfl
  exact hlength ▸ idxOf_lt_length_of_mem hc

theorem toList_toBase58_mem {b : Bytes} {c : Char} (h : c ∈ (rustBase58.toBase58 b).toList) :
    c ∈ base58Alphabet := by
  rw [rustBase58, String.toList_ofList] at h
  obtain ⟨d, hd, rfl⟩ := mem_map.mp h
  exact base58Char_mem (Positional.rebase_digits_lt (by decide) hd)

theorem base58Digits_toBase58 (b : Bytes) :
    base58Digits (rustBase58.toBase58 b) = Positional.rebase 256 58 (b.map UInt8.toNat) := by
  rw [base58Digits, rustBase58, String.toList_ofList, map_map]
  conv_rhs => rw [← map_id (Positional.rebase 256 58 (b.map UInt8.toNat))]
  refine map_congr_left (fun d hd => ?_)
  exact idxOf_base58Char (Positional.rebase_digits_lt (by decide) hd)

theorem rustBase58_decode_encode (b : Bytes) :
    rustBase58.fromBase58 (rustBase58.toBase58 b) = .ok b := by
  have hall : (rustBase58.toBase58 b).toList.all (fun c => c ∈ base58Alphabet) = true := by
    rw [all_eq_true]
    exact fun c hc => decide_eq_true (toList_toBase58_mem hc)
  have hbytes : Positional.rebase 58 256 (base58Digits (rustBase58.toBase58 b)) =
      b.map UInt8.toNat := by
    rw [base58Digits_toBase58]
    refine Positional.rebase_rebase (by decide) ?_
    intro d hd
    obtain ⟨x, _, rfl⟩ := mem_map.mp hd
    exact x.toNat_lt
  change (if _ then _ else _) = _
  rw [if_pos hall, hbytes, map_map]
  have hid : (UInt8.ofNat ∘ UInt8.toNat) = id := funext (fun x => UInt8.ofNat_toNat)
  rw [hid, map_id]

theorem rustBase58_encode_decode (s : String) (b : Bytes) (h : rustBase58.fromBase58 s = .ok b) :
    rustBase58.toBase58 b = s := by
  change (if _ then _ else _) = _ at h
  by_cases hall : s.toList.all (fun c => c ∈ base58Alphabet) = true
  · rw [if_pos hall] at h
    have hmem : ∀ c ∈ s.toList, c ∈ base58Alphabet :=
      fun c hc => of_decide_eq_true (all_eq_true.mp hall c hc)
    have hdigits : ∀ d ∈ base58Digits s, d < 58 := by
      intro d hd
      obtain ⟨c, hc, rfl⟩ := mem_map.mp hd
      exact idxOf_lt (hmem c hc)
    have hb : b.map UInt8.toNat = Positional.rebase 58 256 (base58Digits s) := by
      cases h
      rw [map_map]
      conv_rhs => rw [← map_id (Positional.rebase 58 256 (base58Digits s))]
      refine map_congr_left (fun d hd => ?_)
      exact UInt8.toNat_ofNat_of_lt' (Positional.rebase_digits_lt (by decide) hd)
    have hchars : (base58Digits s).map base58Char = s.toList := by
      rw [base58Digits, map_map]
      conv_rhs => rw [← map_id s.toList]
      exact map_congr_left (fun c hc => base58Char_idxOf (hmem c hc))
    rw [rustBase58]
    dsimp only
    rw [hb, Positional.rebase_rebase (by decide) hdigits, hchars, String.ofList_toList]
  · rw [if_neg hall] at h
    cases h

def rustBase58Codec : LawfulBase58 where
  base58 := rustBase58
  decode_encode := rustBase58_decode_encode
  encode_decode := rustBase58_encode_decode
  alphabet := by
    have hall : base58Alphabet.all fun c => c ≠ '~' ∧ c ≠ ':' := by
      rw [base58Alphabet_eq]
      rfl
    exact fun b c hc => of_decide_eq_true (all_eq_true.mp hall c (toList_toBase58_mem hc))

/-! ### Keys and their two spellings -/

structure PublicKey where
  bytes : Bytes
  length_bytes : bytes.length = publicKeyBytes
  deriving DecidableEq

/-- A DID as the wallet stores it. -/
structure DidBytes where
  bytes : Bytes
  length_bytes : bytes.length = 16 ∨ bytes.length = 32
  deriving DecidableEq

def abbreviateVerkey (base58 : Base58) (did verkey : String) : IndyResult String := do
  validateDid base58 did
  validateKey base58 verkey
  let did ← decode base58 did
  let dverkey ← decode base58 verkey
  if dverkey.length < 16 then .panic
  else if dverkey.take 16 = did then .ok ("~" ++ encode base58 (dverkey.drop 16))
  else .ok verkey

namespace LawfulBase58

variable (codec : LawfulBase58) (did : DidBytes) (key : PublicKey)

def didText : String := codec.base58.toBase58 did.bytes

def keyText : String := codec.base58.toBase58 key.bytes

/-- The key that a full or an abbreviated text of a DID stands for. -/
def readVerkey (verkey : String) : Option PublicKey :=
  match expandVerkey codec.base58 (codec.didText did) verkey with
  | .ok text =>
    match decode codec.base58 text with
    | .ok bytes => if h : bytes.length = publicKeyBytes then some ⟨bytes, h⟩ else none
    | _ => none
  | _ => none

/-- The shortest text of a key. -/
def shortText : String :=
  if key.bytes.take 16 = did.bytes then "~" ++ codec.base58.toBase58 (key.bytes.drop 16)
  else codec.keyText key

@[simp] theorem decode_toBase58 (b : Bytes) :
    decode codec.base58 (codec.base58.toBase58 b) = .ok b := by
  rw [decode, codec.decode_encode]

theorem abbreviated_toBase58 (b : Bytes) : abbreviated (codec.base58.toBase58 b) = none := by
  unfold abbreviated
  split
  · rename_i rest hrest
    exact absurd rfl (codec.alphabet b '~' (by rw [hrest]; exact mem_cons_self)).1
  · rfl

theorem abbreviated_mark (b : Bytes) :
    abbreviated ("~" ++ codec.base58.toBase58 b) = some (codec.base58.toBase58 b) := by
  have hlist :
      ("~" ++ codec.base58.toBase58 b).toList = '~' :: (codec.base58.toBase58 b).toList := by
    rw [String.toList_append]
    rfl
  rw [abbreviated, hlist]
  exact congrArg some String.ofList_toList

theorem splitKey_of_notMem {s : String} (h : ':' ∉ s.toList) : splitKey s = (s, none) := by
  rw [splitKey, splitOn_eq_singleton h]
  rfl

theorem splitKey_toBase58 (b : Bytes) :
    splitKey (codec.base58.toBase58 b) = (codec.base58.toBase58 b, none) :=
  splitKey_of_notMem (fun h => absurd rfl (codec.alphabet b ':' h).2)

theorem validateDid_didText : validateDid codec.base58 (codec.didText did) = .ok () := by
  have hlength : ¬(did.bytes.length ≠ 16 ∧ did.bytes.length ≠ 32) := by
    have := did.length_bytes
    omega
  rw [validateDid, didText, decode_toBase58, ok_bind, if_neg hlength]

theorem validateKey_keyText : validateKey codec.base58 (codec.keyText key) = .ok () := by
  rw [validateKey, keyText, splitKey_toBase58]
  dsimp only
  rw [if_neg (by decide), abbreviated_toBase58]
  dsimp only
  rw [decode_toBase58, ok_bind, publicKeyFromSlice, if_pos key.length_bytes]

theorem abbreviateVerkey_keyText :
    abbreviateVerkey codec.base58 (codec.didText did) (codec.keyText key) =
      .ok (codec.shortText did key) := by
  have hlength : ¬ key.bytes.length < 16 := by
    rw [key.length_bytes]
    decide
  rw [abbreviateVerkey, validateDid_didText, ok_bind, validateKey_keyText, ok_bind,
    didText, decode_toBase58, ok_bind, keyText, decode_toBase58, ok_bind,
    if_neg hlength, shortText]
  split
  · rfl
  · rfl

theorem abbreviateVerkey_of_abbreviated {verkey rest : String}
    (h : abbreviated verkey = some rest) (text : String) :
    abbreviateVerkey codec.base58 (codec.didText did) verkey ≠ .ok text := by
  intro hok
  unfold abbreviateVerkey at hok
  obtain ⟨_, _, hok⟩ := bind_eq_ok_iff.mp hok
  obtain ⟨_, _, hok⟩ := bind_eq_ok_iff.mp hok
  obtain ⟨_, _, hok⟩ := bind_eq_ok_iff.mp hok
  obtain ⟨bytes, hbytes, _⟩ := bind_eq_ok_iff.mp hok
  rw [← codec.encode_decode verkey bytes (decode_eq_ok.mp hbytes), abbreviated_toBase58] at h
  cases h

theorem readVerkey_keyText : codec.readVerkey did (codec.keyText key) = some key := by
  rw [readVerkey, keyText, expandVerkey, abbreviated_toBase58]
  dsimp only
  rw [decode_toBase58]
  exact dif_pos key.length_bytes

theorem readVerkey_shortText : codec.readVerkey did (codec.shortText did key) = some key := by
  rw [shortText]
  by_cases htake : key.bytes.take 16 = did.bytes
  · have hbytes : did.bytes ++ key.bytes.drop 16 = key.bytes := by
      rw [← htake, take_append_drop]
    rw [if_pos htake, readVerkey, expandVerkey, abbreviated_mark]
    dsimp only
    rw [didText, decode_toBase58, ok_bind, decode_toBase58, ok_bind, encode, hbytes]
    dsimp only
    rw [decode_toBase58]
    exact dif_pos key.length_bytes
  · rw [if_neg htake, readVerkey_keyText]

end LawfulBase58

end IndySdk.Crypto
