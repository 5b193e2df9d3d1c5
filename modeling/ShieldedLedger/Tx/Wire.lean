import ShieldedLedger.General.Cursor
import ShieldedLedger.Tx

/-!
# Wire format of transactions

The encoder concatenates eleven fields of fixed size after a version byte; the
decoder walks over the bytes with a cursor.  Both anti-spam bodies take up the
same space: the proof-of-work solution is padded with zeros, and the decoder
insists on the zeros, so that every transaction has exactly one encoding.
-/

namespace ShieldedLedger

/-! ## Anti-spam bodies -/

/-- The quota body is the larger one; the solution is padded to it. -/
def antispamBodyLen : ℕ := rateProofLen
def powTag : UInt8 := 0x01
def quotaTag : UInt8 := 0x02

namespace AntiSpam

def tag : AntiSpam → UInt8
  | .pow _ => powTag
  | .quota _ => quotaTag

/-- Fixed-length body, padded with zeros for the smaller lane. -/
def body : AntiSpam → Bytes.Array antispamBodyLen
  | .pow solution =>
      ⟨solution.toBytes.toList ++ List.replicate (antispamBodyLen - 8) 0, by
        rw [List.length_append, List.Vector.toList_length, List.length_replicate]
        rfl⟩
  | .quota proof => proof.toBytes

def fromWire (tag : UInt8) (body : Bytes.Array antispamBodyLen) : Except TxError AntiSpam :=
  if tag = powTag then
    -- the padding beyond the solution must be zero
    if (body.toList.drop 8).any fun x => x != 0 then .error .malformed
    else .ok (.pow (PowSolution.fromBytes (Bytes.slice body 0 8 (by decide))))
  else if tag = quotaTag then .ok (.quota (RateProof.fromBytes body))
  else .error .malformed

end AntiSpam

/-! ## Transactions -/

namespace TxV1

def encode (tx : TxV1) : List UInt8 :=
  [1] ++ leBytes tx.anchor.height ++ tx.anchor.root.toList ++
    (tx.nullifiers.toList.flatMap fun nf => nf.bytes.toList) ++
    (tx.commitments.toList.flatMap fun cm => cm.bytes.toList) ++
    (tx.encOutputs.toList.flatMap fun e => e.bytes) ++
    [tx.antispam.tag] ++ tx.antispam.body.toList ++ tx.proof

/-- The encoded length, the same for every transaction. -/
def encodedLen : ℕ :=
  1 + 8 + 32 + txInputs * 32 + txOutputs * 32 + txOutputs * encOutputLen + 1 + antispamBodyLen +
    proofBucket

/-- Take the next bytes of the transaction. -/
def take (size : ℕ) : Cursor.Reader TxError (Bytes.Array size) := Cursor.take .malformed size

/-- The walk over the fields. -/
def readFields : Cursor.Reader TxError TxV1 := do
  let version ← take 1
  Cursor.ensure .malformed (version.head == 1)
  let height ← take 8
  let root ← take 32
  let nf0 ← take 32
  let nf1 ← take 32
  let cm0 ← take 32
  let cm1 ← take 32
  let enc0 ← take encOutputLen
  let enc1 ← take encOutputLen
  let tag ← take 1
  let body ← take antispamBodyLen
  let antispam ← liftM (AntiSpam.fromWire tag.head body)
  let proof ← take proofBucket
  pure {
    anchor := ⟨Bytes.ofLittleEndian height.toList, root⟩
    nullifiers := ⟨[⟨nf0⟩, ⟨nf1⟩], rfl⟩
    commitments := ⟨[⟨cm0⟩, ⟨cm1⟩], rfl⟩
    encOutputs := ⟨[⟨enc0.toList⟩, ⟨enc1.toList⟩], rfl⟩
    antispam
    proof := proof.toList }

/-- Decode a transaction; trailing bytes are malformed. -/
def decode (bytes : List UInt8) : Except TxError TxV1 :=
  match readFields bytes with
  | .error error => .error error
  | .ok (tx, rest) => if rest ≠ [] then .error .malformed else .ok tx

end TxV1

/-! ## Words and slices -/

namespace PowSolution

theorem fromBytes_toBytes (solution : PowSolution) : fromBytes solution.toBytes = solution :=
  congrArg PowSolution.mk (ofNat_ofLittleEndian_leBytes solution.nonce)

theorem toBytes_fromBytes (b : Bytes.Array 8) : (fromBytes b).toBytes = b :=
  List.Vector.eq _ _ (leBytes_toNat_ofLittleEndian b)

end PowSolution

namespace RateProof

theorem fromBytes_toBytes {proof : RateProof} (fits : proof.epoch < 2 ^ 64) :
    fromBytes proof.toBytes = proof := by
  let word (value : ℕ) : Bytes.Array 8 := ⟨leBytes value, length_leBytes value⟩
  have layout : proof.toBytes.toList = leBytes proof.epoch ++ (proof.rateNullifier.toList ++
      (leBytes proof.x.toNat ++ leBytes proof.y.toNat)) := by
    simp only [toBytes, List.Vector.toList_mk, List.append_assoc]
  have epoch : Bytes.slice proof.toBytes 0 8 (by decide) = word proof.epoch :=
    Bytes.slice_eq _ [] _ rfl layout
  have rateNullifier : Bytes.slice proof.toBytes 8 32 (by decide) = proof.rateNullifier :=
    Bytes.slice_eq _ (leBytes proof.epoch) _ (length_leBytes _) layout
  have x : Bytes.slice proof.toBytes 40 8 (by decide) = word proof.x.toNat :=
    Bytes.slice_eq _ (leBytes proof.epoch ++ proof.rateNullifier.toList) _ (by simp)
      (by rw [layout, List.append_assoc]; rfl)
  have y : Bytes.slice proof.toBytes 48 8 (by decide) = word proof.y.toNat :=
    Bytes.slice_eq _ (leBytes proof.epoch ++ proof.rateNullifier.toList ++ leBytes proof.x.toNat)
      [] (by simp) (by rw [layout, List.append_nil, List.append_assoc, List.append_assoc]; rfl)
  rw [fromBytes, epoch, rateNullifier, x, y]
  simp only [word, List.Vector.toList_mk, ofLittleEndian_leBytes fits,
    ofNat_ofLittleEndian_leBytes]

theorem toBytes_fromBytes (b : Bytes.Array rateProofLen) : (fromBytes b).toBytes = b := by
  apply List.Vector.eq
  have end_reached : b.toList.drop 56 = [] := by
    apply List.drop_eq_nil_of_le
    rw [b.toList_length]
    exact le_refl _
  have split : b.toList = (Bytes.slice b 0 8 (by decide)).toList ++
      ((Bytes.slice b 8 32 (by decide)).toList ++ ((Bytes.slice b 40 8 (by decide)).toList ++
        (Bytes.slice b 48 8 (by decide)).toList)) := by
    conv_lhs =>
      rw [← List.drop_zero (l := b.toList), Bytes.drop_eq_slice_append b 0 8 (by decide),
        Bytes.drop_eq_slice_append b 8 32 (by decide),
        Bytes.drop_eq_slice_append b 40 8 (by decide),
        Bytes.drop_eq_slice_append b 48 8 (by decide), end_reached, List.append_nil]
  rw [split]
  simp only [toBytes, fromBytes, List.Vector.toList_mk, leBytes_ofLittleEndian,
    leBytes_toNat_ofLittleEndian, List.append_assoc]

theorem epoch_fromBytes_lt (b : Bytes.Array rateProofLen) : (fromBytes b).epoch < 2 ^ 64 :=
  ofLittleEndian_word_lt _

end RateProof

/-! ## One body for each artifact -/

namespace AntiSpam

/-- The counters of the artifact are words of the source. -/
def Sized : AntiSpam → Prop
  | .pow _ => True
  | .quota proof => proof.epoch < 2 ^ 64

theorem drop_body_pow (solution : PowSolution) :
    (body (.pow solution)).toList.drop 8 = List.replicate 48 0 :=
  List.drop_left' (List.Vector.toList_length _)

/-- A body is read back exactly when it is the body of the artifact under its tag. -/
theorem fromWire_eq_ok {wireTag : UInt8} {wireBody : Bytes.Array antispamBodyLen}
    {antispam : AntiSpam} :
    fromWire wireTag wireBody = .ok antispam ↔
      antispam.Sized ∧ antispam.tag = wireTag ∧ antispam.body = wireBody := by
  constructor
  · intro read
    rw [fromWire] at read
    split at read
    · rename_i tagged
      split at read
      · cases read
      · rename_i zeros
        obtain rfl := Except.ok.inj read
        refine ⟨trivial, tagged.symm, ?_⟩
        apply List.Vector.eq
        have padding : wireBody.toList.drop 8 = List.replicate 48 0 := by
          apply List.eq_replicate_iff.mpr
          constructor
          · rw [List.length_drop, wireBody.toList_length]
            rfl
          · intro x member
            by_contra nonzero
            exact zeros (List.any_eq_true.mpr ⟨x, member, by simpa using nonzero⟩)
        have split : wireBody.toList =
            (Bytes.slice wireBody 0 8 (by decide)).toList ++ List.replicate 48 0 := by
          rw [← padding]
          exact Bytes.drop_eq_slice_append wireBody 0 8 (by decide)
        rw [split]
        simp only [body, PowSolution.toBytes_fromBytes, List.Vector.toList_mk]
        rfl
    · split at read
      · rename_i tagged
        obtain rfl := Except.ok.inj read
        exact ⟨RateProof.epoch_fromBytes_lt wireBody, tagged.symm,
          RateProof.toBytes_fromBytes wireBody⟩
      · cases read
  · rintro ⟨sized, rfl, rfl⟩
    cases antispam with
    | pow solution =>
        have zeros : ((body (.pow solution)).toList.drop 8).any (fun x => x != 0) = false := by
          rw [drop_body_pow]
          decide
        have slice : Bytes.slice (body (.pow solution)) 0 8 (by decide) = solution.toBytes :=
          Bytes.slice_eq _ [] _ rfl rfl
        rw [fromWire, tag, if_pos rfl, zeros, slice, PowSolution.fromBytes_toBytes]
        rfl
    | quota proof =>
        have other : quotaTag ≠ powTag := by decide
        rw [fromWire, tag, if_neg other, if_pos rfl, body, RateProof.fromBytes_toBytes sized]

/-- Whether a tag and a body are read back. -/
theorem exists_fromWire_iff {wireTag : UInt8} {wireBody : Bytes.Array antispamBodyLen} :
    (∃ antispam, fromWire wireTag wireBody = .ok antispam) ↔
      wireTag = quotaTag ∨ wireTag = powTag ∧ ∀ x ∈ wireBody.toList.drop 8, x = 0 := by
  have other : quotaTag ≠ powTag := by decide
  constructor
  · rintro ⟨antispam, read⟩
    obtain ⟨-, rfl, rfl⟩ := fromWire_eq_ok.mp read
    cases antispam with
    | pow solution =>
        right
        refine ⟨rfl, fun x member => ?_⟩
        rw [drop_body_pow] at member
        exact List.eq_of_mem_replicate member
    | quota proof => exact .inl rfl
  · rintro (rfl | ⟨rfl, zeros⟩)
    · exact ⟨_, by rw [fromWire, if_neg other, if_pos rfl]⟩
    · have none : (wireBody.toList.drop 8).any (fun x => x != 0) = false := by
        rw [List.any_eq_false]
        intro x member
        simp [zeros x member]
      exact ⟨_, by rw [fromWire, if_pos rfl, none]; rfl⟩

theorem fromWire_fails {wireTag : UInt8} {wireBody : Bytes.Array antispamBodyLen}
    {failure : TxError} (failed : fromWire wireTag wireBody = .error failure) :
    failure = .malformed := by
  rw [fromWire] at failed
  split at failed
  · split at failed
    · exact (Except.error.inj failed).symm
    · cases failed
  · split at failed
    · cases failed
    · exact (Except.error.inj failed).symm

end AntiSpam

/-! ## One encoding for each transaction -/

theorem toList_byte (b : Bytes.Array 1) : b.toList = [b.head] := by
  obtain ⟨bytes, len⟩ := b
  match bytes, len with
  | [_], _ => rfl

namespace TxV1

/-- The counters are words of the source, and the fields of free length fill their place
on the wire. -/
structure Sized (tx : TxV1) : Prop where
  height : tx.anchor.height < 2 ^ 64
  encOutputs : ∀ e ∈ tx.encOutputs.toList, e.bytes.length = encOutputLen
  antispam : tx.antispam.Sized
  proof : tx.proof.length = proofBucket

/-- The walk succeeds exactly on the encodings of sized transactions. -/
theorem readFields_eq_ok {input rest : List UInt8} {tx : TxV1} :
    readFields input = .ok (tx, rest) ↔ tx.Sized ∧ input = tx.encode ++ rest := by
  simp only [readFields, take, Cursor.bind_eq_ok, Cursor.take_eq_ok, Cursor.ensure_eq_ok,
    Cursor.lift_eq_ok, Cursor.pure_eq_ok, AntiSpam.fromWire_eq_ok]
  constructor
  · rintro ⟨version, _, rfl, _, _, ⟨one, rfl⟩, height, _, rfl, root, _, rfl, nf0, _, rfl, nf1, _,
      rfl, cm0, _, rfl, cm1, _, rfl, enc0, _, rfl, enc1, _, rfl, tag, _, rfl, body, _, rfl,
      antispam, _, ⟨⟨sized, tagged, rfl⟩, rfl⟩, proof, _, rfl, rfl, rfl⟩
    constructor
    · exact {
        height := ofLittleEndian_word_lt height
        encOutputs := by simp
        antispam := sized
        proof := proof.toList_length }
    · rw [toList_byte version, toList_byte tag, ← tagged, eq_of_beq one]
      simp only [encode, leBytes_ofLittleEndian, List.Vector.toList_mk, List.flatMap_cons,
        List.flatMap_nil, List.append_nil, List.append_assoc]
  · rintro ⟨sized, rfl⟩
    obtain ⟨⟨height, root⟩, ⟨nullifiers, nfLen⟩, ⟨commitments, cmLen⟩, ⟨encOutputs, encLen⟩,
      antispam, proof⟩ := tx
    match nullifiers, nfLen, commitments, cmLen, encOutputs, encLen with
    | [nf0, nf1], _, [cm0, cm1], _, [enc0, enc1], _ =>
        have enc0Len : enc0.bytes.length = encOutputLen := sized.encOutputs enc0 (by simp)
        have enc1Len : enc1.bytes.length = encOutputLen := sized.encOutputs enc1 (by simp)
        refine ⟨⟨[1], rfl⟩, _, ?_, (), _, ⟨rfl, rfl⟩, ⟨leBytes height, length_leBytes height⟩, _,
          rfl, root, _, rfl, nf0.bytes, _, rfl, nf1.bytes, _, rfl, cm0.bytes, _, rfl, cm1.bytes, _,
          rfl, ⟨enc0.bytes, enc0Len⟩, _, rfl, ⟨enc1.bytes, enc1Len⟩, _, rfl, ⟨[antispam.tag], rfl⟩,
          _, rfl, antispam.body, _, rfl, antispam, _, ⟨⟨sized.antispam, rfl, rfl⟩, rfl⟩,
          ⟨proof, sized.proof⟩, _, rfl, ?_, rfl⟩
        · simp only [encode, List.Vector.toList_mk, List.flatMap_cons, List.flatMap_nil,
            List.append_nil, List.append_assoc]
        · simp only [List.Vector.toList_mk, ofLittleEndian_leBytes sized.height]

/-- Decoding succeeds exactly on the encodings of sized transactions. -/
theorem decode_eq_ok {bytes : List UInt8} {tx : TxV1} :
    decode bytes = .ok tx ↔ tx.Sized ∧ tx.encode = bytes := by
  rw [decode]
  constructor
  · intro decoded
    split at decoded
    · cases decoded
    · rename_i read
      split at decoded
      · cases decoded
      · rename_i finished
        obtain rfl := Except.ok.inj decoded
        obtain ⟨sized, rfl⟩ := readFields_eq_ok.mp read
        rw [not_not.mp finished, List.append_nil]
        exact ⟨sized, rfl⟩
  · rintro ⟨sized, rfl⟩
    have read : readFields tx.encode = .ok (tx, []) := by
      rw [readFields_eq_ok, List.append_nil]
      exact ⟨sized, rfl⟩
    rw [read]
    rfl

/-- The only error of decoding. -/
theorem decode_fails {bytes : List UInt8} {failure : TxError}
    (failed : decode bytes = .error failure) : failure = .malformed := by
  have walk : Cursor.FailsWith .malformed readFields := by
    have next (size : ℕ) : Cursor.FailsWith .malformed (take size) := Cursor.failsWith_take _ size
    refine (next _).bind fun _ => (Cursor.failsWith_ensure _ _).bind fun _ => (next _).bind fun _ =>
      (next _).bind fun _ => (next _).bind fun _ => (next _).bind fun _ => (next _).bind fun _ =>
      (next _).bind fun _ => (next _).bind fun _ => (next _).bind fun _ => (next _).bind fun _ =>
      (next _).bind fun _ => (Cursor.failsWith_lift ?_).bind fun _ => (next _).bind fun _ =>
      Cursor.failsWith_pure _ _
    exact fun _ failed => AntiSpam.fromWire_fails failed
  rw [decode] at failed
  split at failed
  · rename_i read
    exact walk _ _ (read.trans (congrArg Except.error (Except.error.inj failed)))
  · split at failed
    · exact (Except.error.inj failed).symm
    · cases failed

/-! ## Which strings are transactions -/

/-- Where the lane tag stands; the anti-spam body and the proof follow it. -/
def tagAt : ℕ := 1 + 8 + 32 + txInputs * 32 + txOutputs * 32 + txOutputs * encOutputLen

/-- A string of the right length, cut into its fields, is a transaction exactly when the
version byte and the anti-spam artifact are in order. -/
theorem exists_decode_iff_fields {bytes : List UInt8} (len : bytes.length = encodedLen) :
    ∃ (version : Bytes.Array 1) (fields : List UInt8) (tag : Bytes.Array 1)
      (body : Bytes.Array antispamBodyLen) (proof : Bytes.Array proofBucket),
      bytes = version.toList ++ fields ++ tag.toList ++ body.toList ++ proof.toList ∧
      fields.length + 1 = tagAt ∧
      ((∃ tx, decode bytes = .ok tx) ↔
        version.head = 1 ∧ ∃ antispam, AntiSpam.fromWire tag.head body = .ok antispam) := by
  have sizes : encodedLen = 2964 ∧ encOutputLen = 1273 ∧ antispamBodyLen = 56 ∧
      proofBucket = 192 ∧ tagAt = 2715 := ⟨rfl, rfl, rfl, rfl, rfl⟩
  obtain ⟨version, rest0, split0, left0⟩ := Cursor.exists_part bytes 1 (by omega)
  obtain ⟨height, rest1, split1, left1⟩ := Cursor.exists_part rest0 8 (by omega)
  obtain ⟨root, rest2, split2, left2⟩ := Cursor.exists_part rest1 32 (by omega)
  obtain ⟨nf0, rest3, split3, left3⟩ := Cursor.exists_part rest2 32 (by omega)
  obtain ⟨nf1, rest4, split4, left4⟩ := Cursor.exists_part rest3 32 (by omega)
  obtain ⟨cm0, rest5, split5, left5⟩ := Cursor.exists_part rest4 32 (by omega)
  obtain ⟨cm1, rest6, split6, left6⟩ := Cursor.exists_part rest5 32 (by omega)
  obtain ⟨enc0, rest7, split7, left7⟩ := Cursor.exists_part rest6 encOutputLen (by omega)
  obtain ⟨enc1, rest8, split8, left8⟩ := Cursor.exists_part rest7 encOutputLen (by omega)
  obtain ⟨tag, rest9, split9, left9⟩ := Cursor.exists_part rest8 1 (by omega)
  obtain ⟨body, rest10, split10, left10⟩ := Cursor.exists_part rest9 antispamBodyLen (by omega)
  obtain ⟨proof, rest11, split11, left11⟩ := Cursor.exists_part rest10 proofBucket (by omega)
  obtain rfl : rest11 = [] := List.length_eq_zero_iff.mp (by omega)
  have read : readFields bytes = if version.head == 1 then
      (AntiSpam.fromWire tag.head body).bind fun antispam => .ok ({
        anchor := ⟨Bytes.ofLittleEndian height.toList, root⟩
        nullifiers := ⟨[⟨nf0⟩, ⟨nf1⟩], rfl⟩
        commitments := ⟨[⟨cm0⟩, ⟨cm1⟩], rfl⟩
        encOutputs := ⟨[⟨enc0.toList⟩, ⟨enc1.toList⟩], rfl⟩
        antispam
        proof := proof.toList }, [])
      else .error .malformed := by
    rw [split0, split1, split2, split3, split4, split5, split6, split7, split8, split9, split10,
      split11]
    simp only [readFields, take, Cursor.bind_take, Cursor.bind_ensure, Cursor.bind_lift]
    rfl
  refine ⟨version, height.toList ++ root.toList ++ nf0.toList ++ nf1.toList ++ cm0.toList ++
    cm1.toList ++ enc0.toList ++ enc1.toList, tag, body, proof, ?_, ?_, ?_⟩
  · rw [split0, split1, split2, split3, split4, split5, split6, split7, split8, split9, split10,
      split11]
    simp only [List.append_assoc, List.append_nil]
  · simp only [List.length_append, List.Vector.toList_length]
    omega
  · rw [decode, read]
    cases one : version.head == 1 with
    | false =>
        have other : version.head ≠ 1 := by simpa using one
        simp [other]
    | true =>
        have first : version.head = 1 := eq_of_beq one
        cases AntiSpam.fromWire tag.head body <;> simp [first, Except.bind]

theorem length_encode {tx : TxV1} (sized : tx.Sized) : tx.encode.length = encodedLen := by
  have outputs : (tx.encOutputs.toList.map fun e => e.bytes.length) =
      List.replicate txOutputs encOutputLen := by
    apply List.eq_replicate_iff.mpr
    constructor
    · rw [List.length_map, tx.encOutputs.toList_length]
    · intro length member
      obtain ⟨e, eMem, rfl⟩ := List.mem_map.mp member
      exact sized.encOutputs e eMem
  simp only [encode, List.length_append, List.length_flatMap, List.Vector.toList_length, outputs,
    List.map_const', List.sum_replicate_nat, length_leBytes, sized.proof]
  rfl

/-- Zeros beyond the solution, counted from the start of the body. -/
theorem padding_iff (body : Bytes.Array antispamBodyLen) :
    (∀ x ∈ body.toList.drop 8, x = 0) ↔
      ∀ i, 8 ≤ i → i < antispamBodyLen → body.toList[i]? = some 0 := by
  constructor
  · intro zeros i beyond inside
    have covered : i < body.toList.length := by rwa [body.toList_length]
    have found := List.getElem?_eq_getElem covered
    rw [found]
    apply congrArg some
    apply zeros
    rw [List.mem_iff_getElem?]
    exact ⟨i - 8, by rw [List.getElem?_drop, Nat.add_sub_cancel' beyond, found]⟩
  · intro zeros x member
    obtain ⟨offset, found⟩ := List.mem_iff_getElem?.mp member
    rw [List.getElem?_drop] at found
    have inside := (List.getElem?_eq_some_iff.mp found).1
    rw [body.toList_length] at inside
    rw [zeros _ (Nat.le_add_right _ _) inside] at found
    exact (Option.some.inj found).symm

/-- The strings that decode: those of the right length with version byte 1, a lane tag
and, on the proof-of-work lane, zeros after the solution. -/
theorem exists_decode_iff {bytes : List UInt8} :
    (∃ tx, decode bytes = .ok tx) ↔
      bytes.length = encodedLen ∧ bytes[0]? = some 1 ∧
        (bytes[tagAt]? = some quotaTag ∨
          bytes[tagAt]? = some powTag ∧
            ∀ i, 8 ≤ i → i < antispamBodyLen → bytes[tagAt + 1 + i]? = some 0) := by
  have checked (len : bytes.length = encodedLen) : (∃ tx, decode bytes = .ok tx) ↔
      bytes[0]? = some 1 ∧ (bytes[tagAt]? = some quotaTag ∨ bytes[tagAt]? = some powTag ∧
        ∀ i, 8 ≤ i → i < antispamBodyLen → bytes[tagAt + 1 + i]? = some 0) := by
    obtain ⟨version, fields, tag, body, proof, split, placed, decodes⟩ :=
      exists_decode_iff_fields len
    have first : bytes[0]? = some version.head := by
      rw [split, toList_byte version]
      rfl
    have before : (version.toList ++ fields).length = tagAt := by
      rw [List.length_append, version.toList_length]
      omega
    have lane : bytes[tagAt]? = some tag.head := by
      rw [split, List.append_assoc, List.append_assoc, List.getElem?_append_right before.le,
        before, Nat.sub_self, toList_byte tag]
      rfl
    have bodyAt (i : ℕ) (inside : i < antispamBodyLen) :
        bytes[tagAt + 1 + i]? = body.toList[i]? := by
      have reached : (version.toList ++ fields ++ tag.toList).length = tagAt + 1 := by
        rw [List.length_append, before, tag.toList_length]
      rw [split, List.append_assoc, List.getElem?_append_right (by omega), reached,
        Nat.add_sub_cancel_left, List.getElem?_append_left (by rwa [body.toList_length])]
    rw [decodes, AntiSpam.exists_fromWire_iff, padding_iff, first, lane, Option.some_inj,
      Option.some_inj, Option.some_inj]
    have bodies : (∀ i, 8 ≤ i → i < antispamBodyLen → bytes[tagAt + 1 + i]? = some 0) ↔
        ∀ i, 8 ≤ i → i < antispamBodyLen → body.toList[i]? = some 0 := by
      refine forall_congr' fun i => imp_congr_right fun _ => forall_congr' fun inside => ?_
      rw [bodyAt i inside]
    rw [bodies]
  constructor
  · intro decodes
    obtain ⟨tx, decoded⟩ := decodes
    obtain ⟨sized, encoded⟩ := decode_eq_ok.mp decoded
    have len : bytes.length = encodedLen := by rw [← encoded, length_encode sized]
    exact ⟨len, (checked len).mp ⟨tx, decoded⟩⟩
  · rintro ⟨len, inOrder⟩
    exact (checked len).mpr inOrder

end TxV1

/-- The wire format is a bijection.  Decoding inverts encoding in both directions, on the
transactions whose fields of free length have their wire size; and decoding succeeds
exactly on the strings of the encoded length with version byte 1, a lane tag and zero
padding on the proof-of-work lane.  All other strings are malformed. -/
theorem wire_format_bijective :
    (∀ (bytes : List UInt8) (tx : TxV1), TxV1.decode bytes = .ok tx → tx.encode = bytes) ∧
    (∀ tx : TxV1, tx.Sized → TxV1.decode tx.encode = .ok tx) ∧
    ∀ bytes : List UInt8,
      ((∃ tx, TxV1.decode bytes = .ok tx) ↔
        bytes.length = TxV1.encodedLen ∧ bytes[0]? = some 1 ∧
          (bytes[TxV1.tagAt]? = some quotaTag ∨
            bytes[TxV1.tagAt]? = some powTag ∧
              ∀ i, 8 ≤ i → i < antispamBodyLen → bytes[TxV1.tagAt + 1 + i]? = some 0)) ∧
      ((¬∃ tx, TxV1.decode bytes = .ok tx) → TxV1.decode bytes = .error .malformed) := by
  refine ⟨fun bytes tx decoded => (TxV1.decode_eq_ok.mp decoded).2,
    fun tx sized => TxV1.decode_eq_ok.mpr ⟨sized, rfl⟩, fun bytes => ⟨TxV1.exists_decode_iff, ?_⟩⟩
  intro fails
  cases decoded : TxV1.decode bytes with
  | ok tx => exact absurd ⟨tx, decoded⟩ fails
  | error failure => rw [TxV1.decode_fails decoded]

section Samples

/-- A transaction on the quota lane. -/
def wireTx : TxV1 where
  anchor := ⟨3, Bytes.filled 32 1⟩
  nullifiers := ⟨[⟨Bytes.filled 32 1⟩, ⟨Bytes.filled 32 2⟩], rfl⟩
  commitments := ⟨[⟨Bytes.filled 32 3⟩, ⟨Bytes.filled 32 4⟩], rfl⟩
  encOutputs := List.Vector.replicate 2 ⟨List.replicate encOutputLen 7⟩
  antispam := .quota ⟨5, Bytes.filled 32 9, 123, 456⟩
  proof := List.replicate proofBucket 0

theorem wire_format_bijective_sample : TxV1.decode wireTx.encode = .ok wireTx := by
  have sized : wireTx.Sized :=
    { height := by decide
      encOutputs := fun e member => by
        have same : e = ⟨List.replicate encOutputLen 7⟩ := List.eq_of_mem_replicate member
        rw [same, List.length_replicate]
      antispam := show 5 < 2 ^ 64 by decide
      proof := List.length_replicate }
  exact wire_format_bijective.2.1 wireTx sized

end Samples

end ShieldedLedger
