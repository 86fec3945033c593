import OrdWallet.Withdrawal

/-!
# The transaction signed is the transaction measured

`build_and_submit` does not sign the transaction a builder measured: except for the plain shape
it assembles it again from the fields the result keeps, recomputing the fee split, the postage
owed and the change. Here every such reassembly is shown to give back, input for input and
output for output, the transaction of the builder's last iteration, so the fee stored in the
result is the fee of the transaction that is signed.
-/

namespace OrdWallet

/-- The two halves of the fee add up to the fee. -/
theorem fee_halves (fee : ℕ) :
    (if fee % 2 = 0 then fee / 2 else (fee - 1) / 2) +
      (if fee % 2 = 0 then fee / 2 else (fee - 1) / 2 + 1) = fee := by
  split <;> omega

/-- The `LegoBitcoin` reassembly of a successful two-sender build is the built transaction: the
receiver's `amount0 + amount1 - fee` is the builder's `amount0 + amount1 - fee0 - fee1`. -/
theorem MultiSenderTxn.legoTxn_of_build {addr0 addr1 : String} {address0 address1 receiver : Address}
    {amount0 amount1 fee : ℕ} {paidBySender : Bool} {m m' : UtxoManager} {txn : Transaction}
    {u0 u1 : List Utxo} (hfee : fee < 2 ^ 64)
    (h : MultiSenderTxn.buildTransactionWithFee addr0 addr1 address0 address1 receiver amount0 amount1
      fee paidBySender m = (.ok (txn, u0, u1), m')) :
    TransactionType.legoTxn address0 address1 u0 u1 amount0 amount1 fee paidBySender receiver = txn := by
  obtain ⟨s0, s1, hs, rfl⟩ := MultiSenderTxn.buildTransactionWithFee_ok h
  obtain ⟨rfl, rfl, -⟩ := MultiSenderTxn.selectUtxos_ok hs
  have hsub : ∀ x, wrappingSub 64 (wrappingSub 64 x (if fee % 2 = 0 then fee / 2 else (fee - 1) / 2))
      (if fee % 2 = 0 then fee / 2 else (fee - 1) / 2 + 1) = wrappingSub 64 x fee := fun x => by
    rw [wrappingSub_wrappingSub (by rw [fee_halves]; omega), fee_halves]
  unfold TransactionType.legoTxn
  rw [hsub]
  by_cases heven : fee % 2 = 0 <;> cases paidBySender <;> simp [heven]

/-- The `Runestone` reassembly of a successful rune build is the built transaction. -/
theorem RunestoneTxn.runestoneTxn_of_build {runeid : RuneId} {amount fee postage : ℕ}
    {senderAddr receiverAddr : String} {senderAddress receiverAddress : Address}
    {paidBySender : Bool} {m m' : UtxoManager} {txn : Transaction} {runicUtxos : List RunicUtxo}
    {feeUtxos : List Utxo}
    (h : RunestoneTxn.buildTransactionWithFee runeid amount senderAddr receiverAddr senderAddress
      receiverAddress fee paidBySender postage m = some (.ok (txn, runicUtxos, feeUtxos), m')) :
    TransactionType.runestoneTxn runeid amount fee runicUtxos feeUtxos paidBySender senderAddress
      receiverAddress postage = some txn := by
  obtain ⟨m₁, required, feeTotalSpent, -, hreq, hf, rfl⟩ := RunestoneTxn.buildTransactionWithFee_ok h
  obtain ⟨rfl, -⟩ := selectBitcoin_ok hf
  simp only [TransactionType.runestoneTxn, hreq, Option.map_some']

/-- The `Combined` reassembly of a successful combined build is the built transaction. -/
theorem CombinedTxn.combinedTxn_of_build {fromAddr receiverAddr : String}
    {senderAddress receiverAddress : Address} {runeid : RuneId}
    {runeAmount btcAmount postage fee : ℕ} {paidBySender : Bool} {m m' : UtxoManager}
    {txn : Transaction} {runicUtxos : List RunicUtxo} {btcUtxos feeUtxos : List Utxo}
    (h : CombinedTxn.buildTransactionWithFee fromAddr receiverAddr senderAddress receiverAddress
      runeid runeAmount btcAmount postage fee paidBySender m =
        some (.ok (txn, runicUtxos, btcUtxos, feeUtxos), m')) :
    TransactionType.combinedTxn senderAddress receiverAddress runicUtxos btcUtxos feeUtxos runeid
      runeAmount btcAmount fee postage paidBySender = some txn := by
  obtain ⟨m₁, m₂, required, btcTotalSpent, feeTotalSpent, -, hb, hreq, hf, rfl⟩ :=
    CombinedTxn.buildTransactionWithFee_ok h
  obtain ⟨rfl, -⟩ := selectBitcoin_ok hb
  have hfee : feeTotalSpent = sumValues feeUtxos := by
    rcases CombinedTxn.selectFeeUtxos_ok hf with ⟨-, rfl, rfl, -⟩ | ⟨-, hs⟩
    · rfl
    · exact (selectBitcoin_ok hs).1
  subst hfee
  simp only [TransactionType.combinedTxn, hreq, Option.map_some']
  cases paidBySender <;> rfl

/-- One iteration's result reassembles into that iteration's transaction, for a fee that fits
in `u64`. -/
theorem Request.unsignedTxn_of_build {req : Request} {fee : ℕ} {m m' : UtxoManager}
    {txn : Transaction} {tt : TransactionType} (hfee : fee < 2 ^ 64)
    (h : req.build fee m = some (.ok (txn, tt), m')) : tt.unsignedTxn = some txn := by
  cases req with
  | bitcoin =>
    obtain ⟨utxos, -, rfl⟩ := Request.build_eq_ok h
    rfl
  | legoBitcoin arg =>
    obtain ⟨u0, u1, hb, rfl⟩ := Request.build_eq_ok h
    exact congrArg some (MultiSenderTxn.legoTxn_of_build hfee (Option.some.inj hb))
  | runestone args =>
    obtain ⟨runicUtxos, feeUtxos, hb, rfl⟩ := Request.build_eq_ok h
    exact RunestoneTxn.runestoneTxn_of_build hb
  | combined req =>
    obtain ⟨runicUtxos, btcUtxos, feeUtxos, hb, rfl⟩ := Request.build_eq_ok h
    exact CombinedTxn.combinedTxn_of_build hb

/-- The inputs of one iteration's transaction spend the UTXOs its result lists, in order. -/
theorem Request.input_of_build {req : Request} {fee : ℕ} {m m' : UtxoManager}
    {txn : Transaction} {tt : TransactionType} (h : req.build fee m = some (.ok (txn, tt), m')) :
    txn.input = tt.spentUtxos.map unsignedInput := by
  cases req with
  | bitcoin =>
    obtain ⟨utxos, hb, rfl⟩ := Request.build_eq_ok h
    obtain ⟨total, -, rfl⟩ := PlainTxn.buildTransactionWithFee_ok (Option.some.inj hb)
    rfl
  | legoBitcoin arg =>
    obtain ⟨u0, u1, hb, rfl⟩ := Request.build_eq_ok h
    obtain ⟨s0, s1, -, rfl⟩ := MultiSenderTxn.buildTransactionWithFee_ok (Option.some.inj hb)
    simp [unsignedTransaction, TransactionType.spentUtxos]
  | runestone args =>
    obtain ⟨runicUtxos, feeUtxos, hb, rfl⟩ := Request.build_eq_ok h
    obtain ⟨m₁, required, feeTotal, -, -, -, rfl⟩ := RunestoneTxn.buildTransactionWithFee_ok hb
    simp [unsignedTransaction, TransactionType.spentUtxos, Function.comp_def]
  | combined req =>
    obtain ⟨runicUtxos, btcUtxos, feeUtxos, hb, rfl⟩ := Request.build_eq_ok h
    obtain ⟨m₁, m₂, required, btcTotal, feeTotal, -, -, -, -, rfl⟩ :=
      CombinedTxn.buildTransactionWithFee_ok hb
    simp [unsignedTransaction, TransactionType.spentUtxos, Function.comp_def]

/-- A two-sender send of 30 000 sats to a third address, where the two senders hold one UTXO each. -/
def pairRequest : Request :=
  .legoBitcoin
    { addr0 := "alice", addr1 := "bob", address0 := Address.p2pkh (List.replicate 20 1)
      address1 := Address.p2pkh (List.replicate 20 2), receiver := Address.p2pkh (List.replicate 20 3)
      account0 := ⟨[1], none⟩, account1 := ⟨[2], none⟩, amount0 := 15000, amount1 := 15000
      feePerVbytes := 1000, paidBySender := true }

/-- The pools of the two senders. -/
def pairPools : UtxoManager :=
  (UtxoManager.empty.recordBtcUtxos "alice" [⟨⟨1, 0⟩, 20000⟩]).recordBtcUtxos "bob" [⟨⟨2, 0⟩, 40000⟩]

end OrdWallet
