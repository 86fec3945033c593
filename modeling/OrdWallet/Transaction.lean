import OrdWallet.Basic

/-!
# Transactions, their size, and the Runestone output

The unsigned transactions the builders assemble (`bitcoin::Transaction`), the virtual size that
prices them, and the `OP_RETURN` script that carries a Runestone (`ordinals::Runestone::encipher`).
The fee of every builder is read off `vsize (mockSignature txn)`; the signer module that defines
`mock_signature` is not among the sources, so it follows the spec's description of the dummy.
-/

namespace OrdWallet

/-- A transaction input (`TxIn`). -/
structure TxIn where
  previousOutput : OutPoint
  scriptSig : List UInt8
  sequence : ℕ
  witness : List (List UInt8)
  deriving DecidableEq, Repr

/-- A transaction output (`TxOut`): a value in satoshis and a locking script. -/
structure TxOut where
  value : ℕ
  scriptPubkey : List UInt8
  deriving DecidableEq, Repr

/-- A transaction (`Transaction`): version, lock time, inputs and outputs. -/
structure Transaction where
  version : ℤ
  lockTime : ℕ
  input : List TxIn
  output : List TxOut
  deriving DecidableEq, Repr

/-- `Sequence::MAX`. -/
def sequenceMax : ℕ := 0xFFFFFFFF

/-- The input every builder makes for a drawn UTXO: it spends the UTXO's outpoint with an
empty `script_sig`, an empty witness and `Sequence::MAX`. -/
def unsignedInput (u : Utxo) : TxIn :=
  { previousOutput := u.outpoint, scriptSig := [], sequence := sequenceMax, witness := [] }

/-- The transaction every builder returns: version 2, lock time zero. -/
def unsignedTransaction (input : List TxIn) (output : List TxOut) : Transaction :=
  { version := 2, lockTime := 0, input, output }

/-- The output paying `value` satoshis to `address`. -/
def payTo (address : Address) (value : ℕ) : TxOut :=
  { value, scriptPubkey := address.scriptPubkey }

/-! ### Size -/

/-- Length of Bitcoin's compact-size integer encoding. -/
def compactSizeLen (n : ℕ) : ℕ :=
  if n < 0xFD then 1 else if n ≤ 0xFFFF then 3 else if n ≤ 0xFFFFFFFF then 5 else 9

/-- Serialized size of an input without its witness. -/
def TxIn.baseSize (i : TxIn) : ℕ := 36 + compactSizeLen i.scriptSig.length + i.scriptSig.length + 4

/-- Serialized size of an input's witness stack. -/
def TxIn.witnessSize (i : TxIn) : ℕ :=
  compactSizeLen i.witness.length + (i.witness.map fun e => compactSizeLen e.length + e.length).sum

/-- Serialized size of an output. -/
def TxOut.size (o : TxOut) : ℕ := 8 + compactSizeLen o.scriptPubkey.length + o.scriptPubkey.length

/-- Size of the serialization without witnesses (`Transaction::base_size`). -/
def Transaction.baseSize (t : Transaction) : ℕ :=
  4 + compactSizeLen t.input.length + (t.input.map TxIn.baseSize).sum +
    compactSizeLen t.output.length + (t.output.map TxOut.size).sum + 4

/-- Size of the full serialization (`Transaction::total_size`): marker, flag and witnesses are
present only when some input has a witness. -/
def Transaction.totalSize (t : Transaction) : ℕ :=
  if t.input.all (·.witness.isEmpty) then t.baseSize
  else t.baseSize + 2 + (t.input.map TxIn.witnessSize).sum

/-- Virtual size (`Transaction::vsize`): the weight `3 * base + total` in vbytes, rounded up. -/
def Transaction.vsize (t : Transaction) : ℕ := (3 * t.baseSize + t.totalSize + 3) / 4

/-- Modelled from the spec: the dummy `script_sig` of `mock_signature`, a push of a 72-byte
signature followed by a push of a 33-byte public key. -/
def mockScriptSig : List UInt8 := 72 :: List.replicate 72 0 ++ 33 :: List.replicate 33 0

/-- Modelled from the spec: `mock_signature` fills every input's `script_sig` with the dummy so
that the virtual size is the one of the signed transaction. -/
def mockSignature (t : Transaction) : Transaction :=
  { t with input := t.input.map fun i => { i with scriptSig := mockScriptSig } }

/-- A mock-signed input without witness occupies 148 bytes. -/
theorem TxIn.baseSize_mock (i : TxIn) : ({ i with scriptSig := mockScriptSig } : TxIn).baseSize = 148 := by
  simp [TxIn.baseSize, mockScriptSig, compactSizeLen]

/-- The virtual size of a mock-signed transaction whose inputs carry no witness: 148 bytes per
input, plus the outputs and the fixed fields. -/
theorem vsize_mockSignature {t : Transaction} (hw : ∀ i ∈ t.input, i.witness = []) :
    (mockSignature t).vsize =
      8 + compactSizeLen t.input.length + 148 * t.input.length +
        compactSizeLen t.output.length + (t.output.map TxOut.size).sum := by
  have hall : (t.input.map fun i => ({ i with scriptSig := mockScriptSig } : TxIn)).all
      (·.witness.isEmpty) = true := by
    simpa [List.all_eq_true] using hw
  have hsum : ((t.input.map fun i => ({ i with scriptSig := mockScriptSig } : TxIn)).map
      TxIn.baseSize).sum = 148 * t.input.length := by
    simp [List.map_map, Function.comp_def, TxIn.baseSize_mock, List.sum_replicate, Nat.mul_comm]
  simp only [Transaction.vsize, Transaction.totalSize, mockSignature, hall, if_true,
    Transaction.baseSize, hsum, List.length_map]
  omega

/-! ### The Runestone output -/

/-- A transfer edict (`ordinals::Edict`): move `amount` of rune `id` to output `output`. -/
structure Edict where
  id : RuneId
  amount : ℕ
  output : ℕ
  deriving DecidableEq, Repr

/-- A Runestone (`ordinals::Runestone`) as the builders make it: edicts only; etching, mint
and pointer stay at their default `None`. -/
structure Runestone where
  edicts : List Edict
  deriving DecidableEq, Repr

/-- The loop of `ordinals::varint::encode_to_vec`, run at most `fuel` times: while `n` has more
than seven bits, emit its low seven bits with the high bit set and shift; then emit `n`. -/
def varintBytes : ℕ → ℕ → List UInt8
  | 0, n => [n.toUInt8]
  | fuel + 1, n => if n < 128 then [n.toUInt8] else (n % 128 + 128).toUInt8 :: varintBytes fuel (n / 128)

/-- LEB128 encoding (`ordinals::varint::encode_to_vec`): seven bits per byte, least significant
group first, the high bit set on every byte but the last. The loop runs fewer than `n` times. -/
def varintEncode (n : ℕ) : List UInt8 := varintBytes n n

/-- `RuneId::delta`: the block delta and the transaction delta from `prev` to `next`. -/
def RuneId.delta (prev next : RuneId) : ℕ × ℕ :=
  let block := next.block - prev.block
  (block, if block = 0 then next.tx - prev.tx else next.tx)

/-- The edict part of the payload: each edict as four integers, its id relative to the previous one. -/
def edictsPayload : RuneId → List Edict → List UInt8
  | _, [] => []
  | prev, e :: es =>
    let (block, tx) := prev.delta e.id
    varintEncode block ++ varintEncode tx ++ varintEncode e.amount ++ varintEncode e.output ++
      edictsPayload e.id es

/-- The Runestone payload: the body tag `0` followed by the edicts sorted by rune id
(`sort_by_key`, a stable sort, as insertion sort is). -/
def Runestone.payload (rs : Runestone) : List UInt8 :=
  if rs.edicts.isEmpty then []
  else varintEncode 0 ++ edictsPayload ⟨0, 0⟩ (rs.edicts.insertionSort fun a b => a.id.le b.id)

/-- `Builder::push_slice`: the shortest push opcode for the length, then the bytes. -/
def pushSlice (data : List UInt8) : List UInt8 :=
  let n := data.length
  if n < 76 then n.toUInt8 :: data
  else if n < 0x100 then 0x4c :: n.toUInt8 :: data
  else if n < 0x10000 then 0x4d :: (n % 256).toUInt8 :: (n / 256).toUInt8 :: data
  else 0x4e :: (n % 256).toUInt8 :: (n / 256 % 256).toUInt8 :: (n / 65536 % 256).toUInt8 ::
    (n / 16777216).toUInt8 :: data

/-- `Runestone::encipher`: `OP_RETURN OP_13` and the payload pushed in chunks of 520 bytes. -/
def Runestone.encipher (rs : Runestone) : List UInt8 :=
  0x6a :: 0x5d :: ((rs.payload.toChunks 520).map pushSlice).flatten

/-- The Runestone script is an `OP_RETURN` script. -/
@[simp] theorem Runestone.encipher_head (rs : Runestone) : rs.encipher.head? = some 0x6a := rfl

/-- The one-edict Runestone both rune builders emit: `amount` of `runeid` to output 2. -/
def transferRunestone (runeid : RuneId) (amount : ℕ) : Runestone :=
  { edicts := [{ id := runeid, amount, output := 2 }] }

end OrdWallet
