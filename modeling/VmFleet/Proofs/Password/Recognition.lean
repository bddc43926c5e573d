import Mathlib.Data.String.Basic
import VmFleet.Password.Hasher

/-!
# A password is recognised by its hash

A digest is as long as its scheme asks for. Bytes come back from their written form, and so do the
fields of a written hash, since none of them has a dollar sign in it. So the digest that is written
is the one that is computed again when the same password is checked.
-/

set_option autoImplicit false

namespace VmFleet

/-! ## Bytes in writing -/

namespace Text.Base64

/-- No digit is a sign of another value. -/
theorem value_digit (n : Nat) (h : n < 64) : value? .standard (digit .standard n) = some n := by
  have hall : ∀ n < 64, value? .standard (digit .standard n) = some n := by decide +kernel
  exact hall n h

def digits : List UInt8 → List Nat
  | [] => []
  | [x] => [x.toNat / 4, x.toNat % 4 * 16]
  | [x, y] => [x.toNat / 4, x.toNat % 4 * 16 + y.toNat / 16, y.toNat % 16 * 4]
  | x :: y :: z :: rest => x.toNat / 4 :: (x.toNat % 4 * 16 + y.toNat / 16) ::
      (y.toNat % 16 * 4 + z.toNat / 64) :: z.toNat % 64 :: digits rest

theorem encodeBytes_eq_map (a : Alphabet) (bytes : List UInt8) :
    encodeBytes a bytes = (digits bytes).map (digit a) := by
  induction bytes using digits.induct with
  | case1 => rfl
  | case2 x => rfl
  | case3 x y => rfl
  | case4 x y z rest ih => simp only [encodeBytes, digits, List.map_cons, ih]

theorem digits_lt (bytes : List UInt8) : ∀ n ∈ digits bytes, n < 64 := by
  have hlt : ∀ x : UInt8, x.toNat < 256 := fun x => x.toNat_lt
  induction bytes using digits.induct with
  | case1 => simp [digits]
  | case2 x =>
    have := hlt x
    simp only [digits, List.forall_mem_cons]
    refine ⟨by omega,by omega,by simp⟩
  | case3 x y =>
    have := hlt x
    have := hlt y
    simp only [digits, List.forall_mem_cons]
    refine ⟨by omega,by omega,by omega,by simp⟩
  | case4 x y z rest ih =>
    have := hlt x
    have := hlt y
    have := hlt z
    simp only [digits, List.forall_mem_cons]
    exact ⟨by omega,by omega,by omega,by omega,ih⟩

theorem toUInt8_of_toNat (x : UInt8) (n : Nat) (h : n = x.toNat) : n.toUInt8 = x := by
  rw [h]
  exact UInt8.ofNat_toNat

theorem decodeValues_digits (bytes : List UInt8) : decodeValues (digits bytes) = some bytes := by
  have hlt : ∀ x : UInt8, x.toNat < 256 := fun x => x.toNat_lt
  induction bytes using digits.induct with
  | case1 => rfl
  | case2 x =>
    have := hlt x
    rw [digits, decodeValues, if_pos (by omega), toUInt8_of_toNat x _ (by omega)]
  | case3 x y =>
    have := hlt x
    have := hlt y
    rw [digits, decodeValues, if_pos (by omega), toUInt8_of_toNat x _ (by omega),
      toUInt8_of_toNat y _ (by omega)]
  | case4 x y z rest ih =>
    have := hlt x
    have := hlt y
    have := hlt z
    rw [digits, decodeValues, ih, Option.map_some, toUInt8_of_toNat x _ (by omega),
      toUInt8_of_toNat y _ (by omega), toUInt8_of_toNat z _ (by omega)]

theorem mapM_value (ns : List Nat) (h : ∀ n ∈ ns, n < 64) :
    (ns.map (digit .standard)).mapM (value? .standard) = some ns := by
  induction ns with
  | nil => rfl
  | cons n ns ih =>
    obtain ⟨hn, hns⟩ := List.forall_mem_cons.mp h
    rw [List.map_cons, List.mapM_cons, value_digit n hn, ih hns]
    rfl

theorem decode_encode (bytes : List UInt8) :
    decode .standard (encode .standard bytes) = some bytes := by
  rw [decode, encode, String.toList_ofList, encodeBytes_eq_map, mapM_value _ (digits_lt bytes)]
  exact decodeValues_digits bytes

theorem not_mem_encode (c : Char) (hc : value? .standard c = none) (bytes : List UInt8) :
    c ∉ (encode .standard bytes).toList := by
  rw [encode, String.toList_ofList, encodeBytes_eq_map]
  intro h
  obtain ⟨n, hn, rfl⟩ := List.mem_map.mp h
  rw [value_digit n (digits_lt bytes n hn)] at hc
  cases hc

theorem utf8Len_digits (ns : List Nat) (h : ∀ n ∈ ns, n < 64) :
    String.utf8Len (ns.map (digit .standard)) = ns.length := by
  have hone : ∀ n < 64, (digit .standard n).utf8Size = 1 := by decide +kernel
  induction ns with
  | nil => rfl
  | cons n ns ih =>
    obtain ⟨hn, hns⟩ := List.forall_mem_cons.mp h
    rw [List.map_cons, String.utf8Len_cons, hone n hn, ih hns, List.length_cons]

theorem decodedLength_digits (bytes : List UInt8) :
    decodedLength (digits bytes).length = bytes.length := by
  induction bytes using digits.induct with
  | case1 => rfl
  | case2 x => simp [digits, decodedLength]
  | case3 x y => simp [digits, decodedLength]
  | case4 x y z rest ih =>
    simp only [digits, decodedLength, List.length_cons] at ih ⊢
    omega

theorem decodedLength_encode (bytes : List UInt8) :
    decodedLength (encode .standard bytes).utf8ByteSize = bytes.length := by
  rw [encode, encodeBytes_eq_map, String.utf8ByteSize_ofList, utf8Len_digits _ (digits_lt bytes),
    decodedLength_digits]

end Text.Base64

namespace Password

/-! ## Digests -/

namespace Blake2b

theorem size_mix (v : Array UInt64) (a b c d : Nat) (x y : UInt64) :
    (mix v a b c d x y).size = v.size := by simp only [mix, Array.size_setIfInBounds]

theorem size_round (block v : Array UInt64) (order : List Nat) : (round block v order).size = v.size := by
  unfold round
  generalize lanes.zip (pairs order) = ps
  induction ps generalizing v with
  | nil => rfl
  | cons p ps ih => rw [List.foldl_cons, ih, size_mix]

theorem size_rounds (block v : Array UInt64) (orders : List (List Nat)) :
    (orders.foldl (round block) v).size = v.size := by
  induction orders generalizing v with
  | nil => rfl
  | cons order orders ih => rw [List.foldl_cons, ih, size_round]

theorem length_compress (state : List UInt64) (bytes : List UInt8) (count : Nat) (isLast : Bool) :
    (compress state bytes count isLast).length = state.length := by
  simp only [compress, initialWords, List.length_zipWith, List.length_drop, Array.length_toList,
    size_rounds, List.size_toArray, List.length_append, List.length_cons, List.length_nil]
  omega

theorem length_absorb (bound : Nat) (state : List UInt64) (bytes : List UInt8) (count : Nat) :
    (absorb bound state bytes count).length = state.length := by
  induction bound generalizing state bytes count with
  | zero => exact length_compress ..
  | succ bound ih =>
    unfold absorb
    split
    · exact length_compress ..
    · rw [ih, length_compress]

theorem length_bytesOfWord (n : Nat) (w : UInt64) : (bytesOfWord n w).length = n := by
  induction n generalizing w with
  | zero => rfl
  | succ n ih => rw [bytesOfWord, List.length_cons, ih]

theorem length_digest (size : Nat) (message : List UInt8) (h : size ≤ 64) :
    (digest size message).length = size := by
  have hwords : ∀ ws : List UInt64, (ws.flatMap (bytesOfWord 8)).length = 8 * ws.length := by
    intro ws
    simp [List.length_flatMap, length_bytesOfWord, Nat.mul_comm]
  simp only [digest, initialWords, List.length_take, hwords, length_absorb, List.length_cons,
    List.length_nil]
  omega

end Blake2b

theorem length_chain (bound size : Nat) (v : List UInt8) (h : size ≤ 32 * bound + 64) :
    (chain bound size v).length = size := by
  induction bound generalizing size v with
  | zero => exact Blake2b.length_digest size v h
  | succ bound ih =>
    unfold chain
    split
    · rename_i hsize
      exact Blake2b.length_digest size v hsize
    · rw [List.length_append, List.length_take, Blake2b.length_digest 64 v (Nat.le_refl _),
        ih _ _ (by omega)]
      omega

theorem length_argon2 (s : Scheme) (password salt associated : List UInt8) :
    (argon2 s password salt associated).length = s.cost.size :=
  length_chain _ _ _ (by omega)

/-! ## Fields -/

theorem splitAt_of_not_mem (c : Char) (piece : List Char) (h : c ∉ piece) :
    splitAt c piece = [piece] := by
  induction piece with
  | nil => rfl
  | cons d piece ih =>
    obtain ⟨hd, hpiece⟩ := not_or.mp (fun hm => h (List.mem_cons.mpr hm))
    rw [splitAt, ih hpiece]
    exact if_neg (Ne.symm hd)

theorem splitAt_ne_nil (c : Char) (cs : List Char) : splitAt c cs ≠ [] := by
  cases cs with
  | nil => simp [splitAt]
  | cons d cs =>
    unfold splitAt
    split
    · simp
    · split <;> simp

theorem splitAt_append (c : Char) (piece rest : List Char) (h : c ∉ piece) :
    splitAt c (piece ++ c :: rest) = piece :: splitAt c rest := by
  induction piece with
  | nil =>
    rw [List.nil_append, splitAt]
    cases hrest : splitAt c rest with
    | nil => exact absurd hrest (splitAt_ne_nil c rest)
    | cons first more => exact if_pos rfl
  | cons d piece ih =>
    obtain ⟨hd, hpiece⟩ := not_or.mp (fun hm => h (List.mem_cons.mpr hm))
    rw [List.cons_append, splitAt, ih hpiece]
    exact if_neg (Ne.symm hd)

theorem checkValue_chars (s : String) (h : checkValue s = .ok ()) :
    ∀ c ∈ s.toList, isValueChar c = true := by
  unfold checkValue at h
  split at h
  · cases h
  · cases hfind : s.toList.find? fun c => !isValueChar c with
    | some c =>
      rw [hfind] at h
      cases h
    | none =>
      intro c hc
      simpa using List.find?_eq_none.mp hfind c hc

theorem checkSalt_chars (salt : String) (h : checkSalt salt = .ok ()) :
    ∀ c ∈ salt.toList, isValueChar c = true := by
  unfold checkSalt at h
  split at h
  · cases h
  · cases hvalue : checkValue salt with
    | ok _ => exact checkValue_chars salt hvalue
    | error e =>
      rw [hvalue] at h
      cases h

/-- What a hash under the standard scheme is written as. -/
def standardPhc (salt : String) (digest : List UInt8) : Phc :=
  ⟨"argon2id",some 19,[("m", "19456"), ("t", "2"), ("p", "1")],some salt,some digest⟩

theorem render_standard (salt : String) (digest : List UInt8) :
    (standardPhc salt digest).render = "$argon2id$v=19$m=19456,t=2,p=1" ++ ("$" ++ salt) ++
      ("$" ++ Text.Base64.encode .standard digest) := by
  have hfields : (Phc.mk "argon2id" (some 19) [("m", "19456"), ("t", "2"), ("p", "1")] none none).render =
      "$argon2id$v=19$m=19456,t=2,p=1" := by
    decide +kernel
  rw [← hfields]
  simp [standardPhc, Phc.render]

theorem pieces_standard (salt : String) (digest : List UInt8) (hsalt : checkSalt salt = .ok ()) :
    pieces '$' (standardPhc salt digest).render =
      ["", "argon2id", "v=19", "m=19456,t=2,p=1", salt, Text.Base64.encode .standard digest] := by
  have hsalt : '$' ∉ salt.toList := fun h => by cases checkSalt_chars salt hsalt '$' h
  have hdigest : '$' ∉ (Text.Base64.encode .standard digest).toList :=
    Text.Base64.not_mem_encode '$' (by decide) digest
  have hlist : (standardPhc salt digest).render.toList = [] ++ '$' :: ("argon2id".toList ++
      '$' :: ("v=19".toList ++ '$' :: ("m=19456,t=2,p=1".toList ++ '$' :: (salt.toList ++
        '$' :: (Text.Base64.encode .standard digest).toList)))) := by
    simp [render_standard, String.toList_append]
  rw [pieces, hlist, splitAt_append _ _ _ (by simp), splitAt_append _ _ _ (by decide),
    splitAt_append _ _ _ (by decide), splitAt_append _ _ _ (by decide),
    splitAt_append _ _ _ hsalt, splitAt_of_not_mem _ _ hdigest]
  simp

theorem takeVersion_standard (rest : List String) : takeVersion ("v=19" :: rest) = .ok (some 19,rest) := by
  rfl

theorem takeParameters_standard (rest : List String) :
    takeParameters ("m=19456,t=2,p=1" :: rest) =
      .ok ([("m", "19456"), ("t", "2"), ("p", "1")],rest) := by
  rfl

theorem digestOf_encode (digest : List UInt8) (hshort : 10 ≤ digest.length)
    (hlong : digest.length ≤ 64) : digestOf (Text.Base64.encode .standard digest) = .ok digest := by
  rw [digestOf, Text.Base64.decodedLength_encode, if_neg (Nat.not_lt.mpr hlong),
    Text.Base64.decode_encode]
  exact if_neg (Nat.not_lt.mpr hshort)

theorem parse_standard (salt : String) (digest : List UInt8) (hsalt : checkSalt salt = .ok ())
    (hshort : 10 ≤ digest.length) (hlong : digest.length ≤ 64) :
    Phc.parse (standardPhc salt digest).render = .ok (standardPhc salt digest) := by
  have hname : checkName "argon2id" = .ok () := by decide +kernel
  have htakeSalt : ∀ rest, takeSalt (salt :: rest) = .ok (some salt,rest) := by
    intro rest
    rw [takeSalt, hsalt]
    rfl
  have htakeDigest : takeDigest [Text.Base64.encode .standard digest] = .ok (some digest,[]) := by
    rw [takeDigest, digestOf_encode digest hshort hlong]
    rfl
  unfold Phc.parse
  rw [pieces_standard salt digest hsalt]
  simp only [hname, takeVersion_standard, takeParameters_standard, htakeSalt, htakeDigest, bind,
    Except.bind]
  rfl

/-- The digest of a password under the standard scheme. -/
def standardDigest (plain : String) (salt : List UInt8) : List UInt8 :=
  argon2 standardScheme plain.toUTF8.toList salt []

theorem hash_eq_ok (plain salt written : String) (h : hash plain salt = .ok written) :
    ∃ bytes, checkSalt salt = .ok () ∧ saltBytes salt = .ok bytes ∧
      written = (standardPhc salt (standardDigest plain bytes)).render := by
  unfold hash at h
  cases hsalt : checkSalt salt with
  | error e =>
    rw [hsalt] at h
    cases h
  | ok _ =>
    cases hbytes : saltBytes salt with
    | error e =>
      rw [hsalt, hbytes] at h
      cases h
    | ok bytes =>
      rw [hsalt, hbytes] at h
      exact ⟨bytes,rfl,rfl,(Except.ok.inj h).symm⟩

theorem digestFor_standard (plain salt : String) (digest bytes : List UInt8)
    (hsize : digest.length = 32) (hbytes : saltBytes salt = .ok bytes) :
    (standardPhc salt digest).digestFor plain = some (standardDigest plain bytes) := by
  have hrun : (standardPhc salt digest).digestFor plain = (saltBytes salt).toOption.bind fun bytes =>
      if (Cost.mk 19456 2 1 digest.length).isValid then
        some (argon2 ⟨.hybrid,.v19,⟨19456,2,1,digest.length⟩⟩ plain.toUTF8.toList bytes [])
      else none := rfl
  have hvalid : (Cost.mk 19456 2 1 32).isValid = true := by decide
  rw [hrun, hbytes, hsize, Except.toOption, Option.bind_some, if_pos hvalid]
  rfl

theorem parse_hash (plain salt written : String) (h : hash plain salt = .ok written) :
    ∃ bytes, saltBytes salt = .ok bytes ∧
      Phc.parse written = .ok (standardPhc salt (standardDigest plain bytes)) := by
  obtain ⟨bytes, hsalt, hbytes, rfl⟩ := hash_eq_ok plain salt written h
  have hsize : (standardDigest plain bytes).length = 32 := length_argon2 standardScheme _ _ _
  exact ⟨bytes,hbytes,parse_standard salt _ hsalt (by omega) (by omega)⟩

/-- Any password can be checked against a hash. -/
theorem verify_total (plain salt written : String) (h : hash plain salt = .ok written) (q : String) :
    ∃ agrees, verify q written = .ok agrees := by
  obtain ⟨bytes, -, hparse⟩ := parse_hash plain salt written h
  exact ⟨_,by rw [verify, hparse]; rfl⟩

/-- Whatever password was hashed, checking it against its hash succeeds. -/
theorem verify_hash (plain salt written : String) (h : hash plain salt = .ok written) :
    verify plain written = .ok true := by
  obtain ⟨bytes, hbytes, hparse⟩ := parse_hash plain salt written h
  have hsize : (standardDigest plain bytes).length = 32 := length_argon2 standardScheme _ _ _
  have hdigest := digestFor_standard plain salt _ bytes hsize hbytes
  generalize standardDigest plain bytes = digest at hparse hdigest
  rw [verify, hparse]
  change Except.ok (_ && (standardPhc salt digest).digestFor plain == some digest) = _
  rw [hdigest]
  simp [standardPhc]

end Password
end VmFleet
