import OrdWallet.Dust
import OrdWallet.Pools

/-!
# Conservation of value

A transaction should pay out what its inputs carry less the fee and the change dropped as dust.
The plain builder does while the amount due fits in `u64`. The combined builder, when the sender
pays, takes the postage owed out of the sender's change, which can wrap to nearly `2 ^ 64` sats;
and the postage owed, `required - btc_in_runic`, underflows when the drawn runic UTXOs carry more
BTC than the postage. When neither wraps, the two-sender, rune and combined builders (the last
with the receiver paying, as `withdraw_combined` calls it) conserve value as the plain one does.
-/

namespace OrdWallet

/-- The values of a list of UTXOs added up over the integers. -/
def inputTotal (utxos : List Utxo) : ℕ := (utxos.map (·.value)).sum

/-- The values of a transaction's outputs added up over the integers. -/
def Transaction.outputTotal (txn : Transaction) : ℕ := (txn.output.map (·.value)).sum

@[simp] theorem inputTotal_append (u v : List Utxo) :
    inputTotal (u ++ v) = inputTotal u + inputTotal v := by
  simp [inputTotal]

/-- A prefix of a pool adds up to at most the pool. -/
theorem inputTotal_le_of_append {u r l : List Utxo} (h : u ++ r = l) : inputTotal u ≤ inputTotal l :=
  h ▸ by simp

/-- The `u64` running sum is the sum over the integers while that fits in `u64`. -/
theorem sumValues_eq_inputTotal {utxos : List Utxo} (h : inputTotal utxos < 2 ^ 64) :
    sumValues utxos = inputTotal utxos := by
  rw [sumValues, show utxos.foldl addValue 0 = (0 + inputTotal utxos) % 2 ^ 64 from
    @foldl_wrappingAdd Utxo 64 0 Utxo.value utxos (Nat.two_pow_pos 64), Nat.zero_add,
    Nat.mod_eq_of_lt h]

/-- A change output carries its value when kept; a dropped change is at most the dust
threshold. -/
theorem changeOutput_total (address : Address) (value : ℕ) :
    ((changeOutput address value).map (·.value)).sum ≤ value ∧
      value ≤ ((changeOutput address value).map (·.value)).sum + dustThreshold := by
  unfold changeOutput
  split <;> simp only [List.map_cons, List.map_nil, List.sum_cons, List.sum_nil, payTo] <;> omega

/-- A plain send from a pool that adds up within `u64`, whose amount due does not wrap, conserves
value: its outputs and the fee it recomputes add up to its inputs less a dropped change of at most
`DUST_THRESHOLD`. -/
theorem plainTransfer_conserves {fuel : ℕ} {addr : String} {account : Account}
    {fromAddress toAddress : Address} {amount feePerVbytes : ℕ} {paidBySender : Bool}
    {m m' : UtxoManager} {tt : TransactionType}
    (h : PlainTxn.transfer fuel addr account fromAddress toAddress amount paidBySender feePerVbytes m =
      .returned (.ok tt) m')
    (hpool : inputTotal (m.bitcoin addr) < 2 ^ 64) :
    ∃ txn, tt.unsignedTxn = some txn ∧
      ((if paidBySender then amount + recomputedFee txn feePerVbytes < 2 ^ 64
        else recomputedFee txn feePerVbytes ≤ amount) →
      txn.outputTotal + recomputedFee txn feePerVbytes ≤ inputTotal tt.spentUtxos ∧
        inputTotal tt.spentUtxos ≤ txn.outputTotal + recomputedFee txn feePerVbytes + dustThreshold) := by
  obtain ⟨fee, txn, utxos, hb, hfee, rfl⟩ := PlainTxn.transfer_ok h
  obtain ⟨total, hs, rfl⟩ := PlainTxn.buildTransactionWithFee_ok hb
  obtain ⟨rfl, hle, -, hpre, -⟩ := selectBitcoin_ok hs
  refine ⟨_, rfl, fun hfit => ?_⟩
  rw [hfee] at hfit ⊢
  have hlt : inputTotal utxos < 2 ^ 64 := lt_of_le_of_lt (inputTotal_le_of_append hpre) hpool
  rw [sumValues_eq_inputTotal hlt] at hle ⊢
  simp only [TransactionType.spentUtxos, Transaction.outputTotal, unsignedTransaction, payTo,
    List.map_cons, List.sum_cons]
  cases paidBySender with
  | true =>
    simp only [if_true] at hfit hle ⊢
    rw [wrappingAdd_of_lt hfit] at hle ⊢
    rw [wrappingSub_of_le hlt hle]
    have hc := changeOutput_total fromAddress (inputTotal utxos - (amount + fee))
    omega
  | false =>
    simp only [Bool.false_eq_true, if_false] at hfit hle ⊢
    rw [wrappingSub_of_le (lt_of_le_of_lt hle hlt) hfit, wrappingSub_of_le hlt hle]
    have hc := changeOutput_total fromAddress (inputTotal utxos - amount)
    omega

set_option maxRecDepth 2000 in
theorem smallPayment_conserves :
    ∃ tt m', PlainTxn.transfer 1 "sender" ⟨[1], none⟩ (Address.p2pkh (List.replicate 20 1))
        (Address.p2pkh (List.replicate 20 2)) 500 true 0 dustPool = .returned (.ok tt) m' ∧
      inputTotal (dustPool.bitcoin "sender") < 2 ^ 64 ∧ ∃ txn, tt.unsignedTxn = some txn ∧
        txn.outputTotal + recomputedFee txn 0 ≤ inputTotal tt.spentUtxos ∧
        inputTotal tt.spentUtxos ≤ txn.outputTotal + recomputedFee txn 0 + dustThreshold := by
  obtain ⟨tt, hok⟩ := Option.isSome_iff_exists.mp
    (by decide : (PlainTxn.transfer 1 "sender" ⟨[1], none⟩ (Address.p2pkh (List.replicate 20 1))
      (Address.p2pkh (List.replicate 20 2)) 500 true 0 dustPool).ok?.isSome = true)
  obtain ⟨m', h⟩ := LoopEnd.ok?_eq_some.mp hok
  have hpool : inputTotal (dustPool.bitcoin "sender") < 2 ^ 64 := by decide
  obtain ⟨txn, htxn, hcons⟩ := plainTransfer_conserves h hpool
  exact ⟨tt, m', h, hpool, txn, htxn, hcons (by simp [recomputedFee])⟩

/-! ### The combined builder with the sender paying -/

/-- A combined send of all 5 units of the rune and 20 000 sats at zero fee, the sender paying. -/
def overpayRequest : CombinedTxn.CombinedTransactionRequest where
  fromAddr := "sender"
  receiverAddr := "receiver"
  senderAddress := Address.p2pkh (List.replicate 20 1)
  receiverAddress := Address.p2pkh (List.replicate 20 2)
  runeid := sampleRune
  runeAmount := 5
  btcAmount := 20000
  senderAccount := ⟨[1], none⟩
  receiverAccount := ⟨[2], none⟩
  postage := none
  feePerVbytes := 0
  paidBySender := true

/-- The sender holds the runic UTXO of 546 sats and one plain UTXO of 25 000 sats. -/
def overpayPools : UtxoManager :=
  (UtxoManager.empty.recordRunicUtxos "sender" sampleRune [runicSample]).recordBtcUtxos "sender"
    [⟨⟨5, 0⟩, 25000⟩]

set_option maxRecDepth 4000 in
/-- The combined send draws 546 + 25 000 sats and owes 10 000 - 546 = 9 454 sats of postage. The
check `25 000 < 20 000 - 9 454 - 0` passes, and the sender's change
`25 000 - 20 000 - 0 - 9 454` wraps: the outputs carry `2 ^ 64 + 25 546` sats at fee zero. -/
theorem combinedTransfer_outputs_exceed_inputs :
    ∃ tt m', CombinedTxn.transfer 1 overpayRequest overpayPools = .returned (.ok tt) m' ∧
      ∃ txn, tt.unsignedTxn = some txn ∧ recomputedFee txn overpayRequest.feePerVbytes = 0 ∧
        txn.output.map (·.value) = [10000, 20000, 2 ^ 64 - 4454] ∧
        inputTotal tt.spentUtxos = 25546 ∧ inputTotal tt.spentUtxos < txn.outputTotal := by
  obtain ⟨tt, hok⟩ := Option.isSome_iff_exists.mp
    (by decide : (CombinedTxn.transfer 1 overpayRequest overpayPools).ok?.isSome = true)
  obtain ⟨m', h⟩ := LoopEnd.ok?_eq_some.mp hok
  have hv : ((CombinedTxn.transfer 1 overpayRequest overpayPools).ok?.bind (·.unsignedTxn)).map
      (fun txn => txn.output.map (·.value)) = some [10000, 20000, 2 ^ 64 - 4454] := by decide
  have hi : (CombinedTxn.transfer 1 overpayRequest overpayPools).ok?.map
      (fun tt => inputTotal tt.spentUtxos) = some 25546 := by decide
  rw [hok, Option.some_bind] at hv
  rw [hok, Option.map_some', Option.some.injEq] at hi
  obtain ⟨txn, htxn, hout⟩ := Option.map_eq_some'.mp hv
  have htotal : txn.outputTotal = 2 ^ 64 + 25546 := by
    rw [Transaction.outputTotal, hout]
    rfl
  exact ⟨tt, m', h, txn, htxn, by simp [recomputedFee, overpayRequest], hout, hi,
    by rw [hi, htotal]; omega⟩

/-! ### The postage owed underflows -/

/-- A UTXO of 20 000 sats carrying 5 units of the rune: more BTC than the default postage. -/
def heavyRunic : RunicUtxo := ⟨⟨⟨9, 1⟩, 20000⟩, 5⟩

/-- The sender holds `runic` and one plain UTXO of 100 000 sats. -/
def runeSenderPools (runic : RunicUtxo) : UtxoManager :=
  (UtxoManager.empty.recordRunicUtxos "sender" sampleRune [runic]).recordBtcUtxos "sender"
    [⟨⟨3, 2⟩, 100000⟩]

set_option maxRecDepth 4000 in
/-- Sending the 5 units of `heavyRunic` needs no rune change, so the postage owed is the default
10 000 sats, and `10 000 - 20 000` wraps to `2 ^ 64 - 10 000`. The fee stage then asks the
sender's 100 000 sats for more than `2 ^ 64 - 10 000` and the transfer fails; the same transfer
from a runic UTXO of 546 sats returns a transaction. -/
theorem runeTransfer_postage_underflows :
    defaultPostage < heavyRunic.utxo.value ∧
      wrappingSub 64 defaultPostage heavyRunic.utxo.value = 2 ^ 64 - 10000 ∧
      (∃ m', RunestoneTxn.transfer 1 leakArgs (runeSenderPools heavyRunic) =
        .returned (.error (0, 0)) m') ∧
      ∃ tt m', RunestoneTxn.transfer 3 leakArgs (runeSenderPools runicSample) =
        .returned (.ok tt) m' := by
  refine ⟨by decide, by decide, LoopEnd.error?_eq_some.mp (by decide), ?_⟩
  obtain ⟨tt, hok⟩ := Option.isSome_iff_exists.mp
    (by decide : (RunestoneTxn.transfer 3 leakArgs (runeSenderPools runicSample)).ok?.isSome = true)
  exact ⟨tt, LoopEnd.ok?_eq_some.mp hok⟩

/-! ### Conservation in the other builders -/

/-- The change a builder keeps after drawing `u` to cover `t`, when `u` adds up within `u64`: the
target and the kept change add up to the inputs, less a dropped change of at most the dust
threshold. -/
theorem changeOutput_cover (address : Address) {u : List Utxo} {t : ℕ}
    (hu : inputTotal u < 2 ^ 64) (ht : t ≤ sumValues u) :
    t + ((changeOutput address (wrappingSub 64 (sumValues u) t)).map (·.value)).sum ≤
        inputTotal u ∧
      inputTotal u ≤
        t + ((changeOutput address (wrappingSub 64 (sumValues u) t)).map (·.value)).sum +
          dustThreshold := by
  rw [sumValues_eq_inputTotal hu] at ht ⊢
  rw [wrappingSub_of_le hu ht]
  have hc := changeOutput_total address (inputTotal u - t)
  omega

/-- The `u64` running sum of the BTC runic UTXOs carry is their sum while that fits in `u64`. -/
theorem sumRunicValues_eq {runicUtxos : List RunicUtxo}
    (h : inputTotal (runicUtxos.map (·.utxo)) < 2 ^ 64) :
    sumRunicValues runicUtxos = inputTotal (runicUtxos.map (·.utxo)) := by
  rw [sumRunicValues, @foldl_wrappingAdd RunicUtxo 64 0 (·.utxo.value) runicUtxos
    (Nat.two_pow_pos 64), Nat.zero_add,
    Nat.mod_eq_of_lt (by simpa [inputTotal, Function.comp_def] using h)]
  simp [inputTotal, Function.comp_def]

/-- The postage the rune outputs carry is the postage the builders require: doubled when rune
change is needed. -/
theorem runeOutputs_total {needChange : Bool} {postage required : ℕ} (runeid : RuneId)
    (amount : ℕ) (s r : Address)
    (h : (if needChange then doublePostage postage else some postage) = some required) :
    ((runeOutputs needChange runeid amount s r postage).map (·.value)).sum = required ∧
      postage ≤ required ∧ required ≤ 2 * postage := by
  cases needChange with
  | false =>
    simp only [Bool.false_eq_true, if_false, Option.some.injEq] at h
    subst h
    simp [runeOutputs, payTo]
    omega
  | true =>
    simp only [if_true, doublePostage] at h
    split at h
    · cases h
      simp [runeOutputs, payTo]
      omega
    · cases h

/-- The postage owed, `required - btc_in_runic`, does not wrap when the runic UTXOs carry at most
the postage. -/
theorem wrappingSub_owed {runicUtxos : List RunicUtxo} {postage required : ℕ}
    (hpost : postage ≤ required) (hreq2 : required ≤ 2 * postage) (hfit : 2 * postage < 2 ^ 64)
    (hcarry : inputTotal (runicUtxos.map (·.utxo)) ≤ postage) :
    wrappingSub 64 required (sumRunicValues runicUtxos) =
      required - inputTotal (runicUtxos.map (·.utxo)) := by
  rw [sumRunicValues_eq (by omega)]
  exact wrappingSub_of_le (by omega) (by omega)

/-- One iteration of the rune builder conserves value when nothing wraps: the drawn UTXOs add up
within `u64`, the runic ones carry at most the postage, and the fee and twice the postage fit in
`u64`. Its outputs and fee add up to its inputs, less a dropped change of at most
`DUST_THRESHOLD`. -/
theorem RunestoneTxn.conserves_of_build {runeid : RuneId} {amount : ℕ}
    {senderAddr receiverAddr : String}
    {senderAddress receiverAddress : Address} {fee postage : ℕ} {paidBySender : Bool}
    {m m' : UtxoManager} {txn : Transaction} {runicUtxos : List RunicUtxo} {feeUtxos : List Utxo}
    (h : RunestoneTxn.buildTransactionWithFee runeid amount senderAddr receiverAddr senderAddress
      receiverAddress fee paidBySender postage m = some (.ok (txn, runicUtxos, feeUtxos), m'))
    (hin : inputTotal (runicUtxos.map (·.utxo) ++ feeUtxos) < 2 ^ 64)
    (hcarry : inputTotal (runicUtxos.map (·.utxo)) ≤ postage)
    (hfit : fee + 2 * postage < 2 ^ 64) :
    txn.outputTotal + fee ≤ inputTotal (runicUtxos.map (·.utxo) ++ feeUtxos) ∧
      inputTotal (runicUtxos.map (·.utxo) ++ feeUtxos) ≤
        txn.outputTotal + fee + dustThreshold := by
  obtain ⟨m₁, required, feeTotal, -, hreq, hf, rfl⟩ :=
    RunestoneTxn.buildTransactionWithFee_ok h
  obtain ⟨rfl, hcover, -⟩ := selectBitcoin_ok hf
  obtain ⟨hrune, hpost, hreq2⟩ := runeOutputs_total runeid amount senderAddress
    receiverAddress hreq
  unfold runeOutputs at hrune
  rw [inputTotal_append] at hin ⊢
  have hactual := wrappingSub_owed hpost hreq2 (by omega) hcarry
  rw [hactual, wrappingAdd_of_lt (by omega)] at hcover
  rw [hactual, wrappingSub_wrappingSub (by omega)]
  have hc := changeOutput_cover (if paidBySender then senderAddress else receiverAddress)
    (show inputTotal feeUtxos < 2 ^ 64 by omega) hcover
  simp only [Transaction.outputTotal, unsignedTransaction, List.map_append, List.sum_append]
  omega

/-- One iteration of the combined builder with the receiver paying, the way `withdraw_combined`
calls it, conserves value when nothing wraps: its outputs and fee add up to its inputs, less the
two changes it may drop. -/
theorem CombinedTxn.conserves_of_build {fromAddr receiverAddr : String}
    {senderAddress receiverAddress : Address} {runeid : RuneId}
    {runeAmount btcAmount postage fee : ℕ} {m m' : UtxoManager} {txn : Transaction}
    {runicUtxos : List RunicUtxo} {btcUtxos feeUtxos : List Utxo}
    (h : CombinedTxn.buildTransactionWithFee fromAddr receiverAddr senderAddress receiverAddress
      runeid runeAmount btcAmount postage fee false m =
        some (.ok (txn, runicUtxos, btcUtxos, feeUtxos), m'))
    (hin : inputTotal (runicUtxos.map (·.utxo) ++ btcUtxos ++ feeUtxos) < 2 ^ 64)
    (hcarry : inputTotal (runicUtxos.map (·.utxo)) ≤ postage)
    (hfit : fee + 2 * postage < 2 ^ 64) :
    txn.outputTotal + fee ≤ inputTotal (runicUtxos.map (·.utxo) ++ btcUtxos ++ feeUtxos) ∧
      inputTotal (runicUtxos.map (·.utxo) ++ btcUtxos ++ feeUtxos) ≤
        txn.outputTotal + fee + 2 * dustThreshold := by
  obtain ⟨m₁, m₂, required, btcTotal, feeTotal, -, hb, hreq, hf, rfl⟩ :=
    CombinedTxn.buildTransactionWithFee_ok h
  obtain ⟨rfl, hbcover, -⟩ := selectBitcoin_ok hb
  rcases CombinedTxn.selectFeeUtxos_ok hf with ⟨hpaid, -⟩ | ⟨-, hfs⟩
  · cases hpaid
  obtain ⟨rfl, hfcover, -⟩ := selectBitcoin_ok hfs
  obtain ⟨hrune, hpost, hreq2⟩ := runeOutputs_total runeid runeAmount
    senderAddress receiverAddress hreq
  simp only [runeOutputs, payTo] at hrune
  simp only [inputTotal_append] at hin ⊢
  have hactual := wrappingSub_owed hpost hreq2 (by omega) hcarry
  rw [hactual, wrappingAdd_of_lt (by omega)] at hfcover
  rw [hactual, wrappingSub_wrappingSub (by omega)]
  have hcs := changeOutput_cover senderAddress (show inputTotal btcUtxos < 2 ^ 64 by omega) hbcover
  have hcr := changeOutput_cover receiverAddress (show inputTotal feeUtxos < 2 ^ 64 by omega)
    hfcover
  simp only [Transaction.outputTotal, unsignedTransaction, List.map_append, List.sum_append,
    List.map_cons, List.sum_cons, payTo, Bool.not_false, if_true]
  omega

/-- One iteration of the two-sender builder conserves value when nothing wraps: the drawn UTXOs
add up within `u64`, the amounts and the fee fit in `u64`, and a receiver who pays the fee gets
at least the fee. Its outputs and fee add up to its inputs, less the two changes it may drop. -/
theorem MultiSenderTxn.conserves_of_build {addr0 addr1 : String}
    {address0 address1 receiver : Address}
    {amount0 amount1 fee : ℕ} {paidBySender : Bool} {m m' : UtxoManager} {txn : Transaction}
    {u0 u1 : List Utxo}
    (h : MultiSenderTxn.buildTransactionWithFee addr0 addr1 address0 address1 receiver amount0
      amount1 fee paidBySender m = (.ok (txn, u0, u1), m'))
    (hin : inputTotal (u0 ++ u1) < 2 ^ 64) (hfit : amount0 + amount1 + fee < 2 ^ 64)
    (hrecv : paidBySender = false → fee ≤ amount0 + amount1) :
    txn.outputTotal + fee ≤ inputTotal (u0 ++ u1) ∧
      inputTotal (u0 ++ u1) ≤ txn.outputTotal + fee + 2 * dustThreshold := by
  obtain ⟨s0, s1, hs, rfl⟩ := MultiSenderTxn.buildTransactionWithFee_ok h
  obtain ⟨rfl, rfl, h0, h1, -⟩ := MultiSenderTxn.selectUtxos_ok hs
  have hhalves := fee_halves fee
  set fee0 := if fee % 2 = 0 then fee / 2 else (fee - 1) / 2
  set fee1 := if fee % 2 = 0 then fee / 2 else (fee - 1) / 2 + 1
  rw [inputTotal_append] at hin ⊢
  simp only [Transaction.outputTotal, unsignedTransaction, List.map_cons, List.sum_cons,
    List.map_append, List.sum_append, payTo]
  cases paidBySender with
  | true =>
    simp only [if_true] at h0 h1 ⊢
    rw [wrappingAdd_of_lt (show amount0 + fee0 < 2 ^ 64 by omega)] at h0 ⊢
    rw [wrappingAdd_of_lt (show amount1 + fee1 < 2 ^ 64 by omega)] at h1 ⊢
    have hc0 := changeOutput_cover address0 (show inputTotal u0 < 2 ^ 64 by omega) h0
    have hc1 := changeOutput_cover address1 (show inputTotal u1 < 2 ^ 64 by omega) h1
    rw [wrappingAdd_of_lt (by omega)]
    omega
  | false =>
    have hle := hrecv rfl
    simp only [Bool.false_eq_true, if_false] at h0 h1 ⊢
    have hc0 := changeOutput_cover address0 (show inputTotal u0 < 2 ^ 64 by omega) h0
    have hc1 := changeOutput_cover address1 (show inputTotal u1 < 2 ^ 64 by omega) h1
    rw [wrappingAdd_of_lt (by omega), wrappingSub_wrappingSub (by omega), hhalves,
      wrappingSub_of_le (by omega) hle]
    omega

/-- The two-sender, rune and combined builders conserve value over the integers when their `u64`
arithmetic does not wrap: the UTXOs spent add up within `u64`, the amounts and the fee (or the
fee and twice the postage) fit in it, the runic UTXOs carry at most the postage, and a receiver
who pays the two-sender fee gets at least the fee. For every call that returns, the transaction
`build_and_submit` signs pays out, with the fee it recomputes, what its inputs carry, less the
change it drops as dust: one change at most for a rune transfer, two for the two-sender and the
combined ones. The combined builder is taken with the receiver paying, as `withdraw_combined`
calls it. -/
theorem builders_conserve_value :
    (∀ fuel (arg : MultiSenderTxn.MultiSendTransactionArgument) m m' tt,
      MultiSenderTxn.transfer fuel arg m = .returned (.ok tt) m' →
      ∃ txn, tt.unsignedTxn = some txn ∧
        (inputTotal tt.spentUtxos < 2 ^ 64 →
          arg.amount0 + arg.amount1 + recomputedFee txn arg.feePerVbytes < 2 ^ 64 →
          (arg.paidBySender = false →
            recomputedFee txn arg.feePerVbytes ≤ arg.amount0 + arg.amount1) →
          txn.outputTotal + recomputedFee txn arg.feePerVbytes ≤ inputTotal tt.spentUtxos ∧
            inputTotal tt.spentUtxos ≤
              txn.outputTotal + recomputedFee txn arg.feePerVbytes + 2 * dustThreshold)) ∧
    (∀ fuel (args : RunestoneTxn.RuneTransferArgs) m m' tt,
      RunestoneTxn.transfer fuel args m = .returned (.ok tt) m' →
      ∃ txn, tt.unsignedTxn = some txn ∧
        (inputTotal tt.spentUtxos < 2 ^ 64 →
          inputTotal ((tt.runicDrawn args.senderAddr args.runeid).map (·.utxo)) ≤
            args.postage.getD defaultPostage →
          recomputedFee txn args.feePerVbytes + 2 * args.postage.getD defaultPostage < 2 ^ 64 →
          txn.outputTotal + recomputedFee txn args.feePerVbytes ≤ inputTotal tt.spentUtxos ∧
            inputTotal tt.spentUtxos ≤
              txn.outputTotal + recomputedFee txn args.feePerVbytes + dustThreshold)) ∧
    (∀ fuel (req : CombinedTxn.CombinedTransactionRequest) m m' tt, req.paidBySender = false →
      CombinedTxn.transfer fuel req m = .returned (.ok tt) m' →
      ∃ txn, tt.unsignedTxn = some txn ∧
        (inputTotal tt.spentUtxos < 2 ^ 64 →
          inputTotal ((tt.runicDrawn req.fromAddr req.runeid).map (·.utxo)) ≤
            req.postage.getD defaultPostage →
          recomputedFee txn req.feePerVbytes + 2 * req.postage.getD defaultPostage < 2 ^ 64 →
          txn.outputTotal + recomputedFee txn req.feePerVbytes ≤ inputTotal tt.spentUtxos ∧
            inputTotal tt.spentUtxos ≤
              txn.outputTotal + recomputedFee txn req.feePerVbytes + 2 * dustThreshold)) := by
  refine ⟨fun fuel arg m m' tt h => ?_, fun fuel args m m' tt h => ?_,
    fun fuel req m m' tt hpaid h => ?_⟩
  · obtain ⟨fee, txn, u0, u1, hb, hfee, rfl⟩ := MultiSenderTxn.transfer_ok h
    refine ⟨txn, congrArg some (MultiSenderTxn.legoTxn_of_build
      (hfee ▸ recomputedFee_lt txn arg.feePerVbytes) hb), fun hin hfit hrecv => ?_⟩
    rw [hfee] at hfit hrecv ⊢
    exact MultiSenderTxn.conserves_of_build hb hin hfit hrecv
  · obtain ⟨fee, txn, runicUtxos, feeUtxos, hb, hfee, rfl⟩ := RunestoneTxn.transfer_ok h
    refine ⟨txn, RunestoneTxn.runestoneTxn_of_build hb, fun hin hcarry hfit => ?_⟩
    rw [hfee] at hfit ⊢
    simp only [TransactionType.runicDrawn, runicAt, and_self, if_true] at hcarry
    exact RunestoneTxn.conserves_of_build hb hin hcarry hfit
  · obtain ⟨fee, txn, runicUtxos, btcUtxos, feeUtxos, hb, hfee, rfl⟩ :=
      CombinedTxn.transfer_ok h
    refine ⟨txn, CombinedTxn.combinedTxn_of_build hb, fun hin hcarry hfit => ?_⟩
    rw [hfee] at hfit ⊢
    simp only [TransactionType.runicDrawn, runicAt, and_self, if_true] at hcarry
    rw [CombinedTxn.build, hpaid] at hb
    exact CombinedTxn.conserves_of_build hb hin hcarry hfit


/-- A combined send of all 5 units of the rune and 20 000 sats at 10 sats a vbyte, the receiver
paying. -/
def receiverPaysRequest : CombinedTxn.CombinedTransactionRequest :=
  { overpayRequest with feePerVbytes := 10, paidBySender := false }

/-- The pools of `overpayPools`, the receiver holding 20 000 sats for the postage and the fee. -/
def receiverPaysPools : UtxoManager :=
  overpayPools.recordBtcUtxos "receiver" [⟨⟨6, 0⟩, 20000⟩]

set_option maxRecDepth 8000 in
/-- Three sends that return and conserve value: 15 000 sats from each of two senders at 1 000 sats
a vbyte, the rune transfer of `leakArgs` from a runic UTXO of 546 sats, and the receiver-paid
combined send. -/
theorem sampleTransfers_conserve_value :
    (∃ tt m', MultiSenderTxn.transfer 3 { pairShortArg with amount1 := 15000 } pairPools =
        .returned (.ok tt) m' ∧ ∃ txn, tt.unsignedTxn = some txn ∧
          txn.outputTotal + recomputedFee txn 1000 ≤ inputTotal tt.spentUtxos ∧
          inputTotal tt.spentUtxos ≤ txn.outputTotal + recomputedFee txn 1000 + 2 * dustThreshold) ∧
    (∃ tt m', RunestoneTxn.transfer 3 leakArgs (runeSenderPools runicSample) =
        .returned (.ok tt) m' ∧ ∃ txn, tt.unsignedTxn = some txn ∧
          txn.outputTotal + recomputedFee txn 1000 ≤ inputTotal tt.spentUtxos ∧
          inputTotal tt.spentUtxos ≤ txn.outputTotal + recomputedFee txn 1000 + dustThreshold) ∧
    (∃ tt m', CombinedTxn.transfer 3 receiverPaysRequest receiverPaysPools =
        .returned (.ok tt) m' ∧ ∃ txn, tt.unsignedTxn = some txn ∧
          txn.outputTotal + recomputedFee txn 10 ≤ inputTotal tt.spentUtxos ∧
          inputTotal tt.spentUtxos ≤ txn.outputTotal + recomputedFee txn 10 + 2 * dustThreshold) := by
  refine ⟨?_, ?_, ?_⟩
  · obtain ⟨tt, hok, txn, htxn, hin, hfit⟩ : ∃ tt ∈ (MultiSenderTxn.transfer 3
        { pairShortArg with amount1 := 15000 } pairPools).ok?, ∃ txn ∈ tt.unsignedTxn,
          inputTotal tt.spentUtxos < 2 ^ 64 ∧ 30000 + recomputedFee txn 1000 < 2 ^ 64 := by
      decide
    obtain ⟨m', h⟩ := LoopEnd.ok?_eq_some.mp hok
    obtain ⟨txn', htxn', hc⟩ := builders_conserve_value.1 _ _ _ _ _ h
    cases Option.some_injective _ (htxn.symm.trans htxn')
    exact ⟨tt, m', h, txn, htxn, hc hin hfit (fun hpaid => by cases hpaid)⟩
  · obtain ⟨tt, hok, txn, htxn, hin, hcarry, hfit⟩ : ∃ tt ∈ (RunestoneTxn.transfer 3
        leakArgs (runeSenderPools runicSample)).ok?, ∃ txn ∈ tt.unsignedTxn,
          inputTotal tt.spentUtxos < 2 ^ 64 ∧
          inputTotal ((tt.runicDrawn "sender" sampleRune).map (·.utxo)) ≤ 10000 ∧
          recomputedFee txn 1000 + 2 * 10000 < 2 ^ 64 := by
      decide
    obtain ⟨m', h⟩ := LoopEnd.ok?_eq_some.mp hok
    obtain ⟨txn', htxn', hc⟩ := builders_conserve_value.2.1 _ _ _ _ _ h
    cases Option.some_injective _ (htxn.symm.trans htxn')
    exact ⟨tt, m', h, txn, htxn, hc hin hcarry hfit⟩
  · obtain ⟨tt, hok, txn, htxn, hin, hcarry, hfit⟩ : ∃ tt ∈ (CombinedTxn.transfer 3
        receiverPaysRequest receiverPaysPools).ok?, ∃ txn ∈ tt.unsignedTxn,
          inputTotal tt.spentUtxos < 2 ^ 64 ∧
          inputTotal ((tt.runicDrawn "sender" sampleRune).map (·.utxo)) ≤ 10000 ∧
          recomputedFee txn 10 + 2 * 10000 < 2 ^ 64 := by
      decide
    obtain ⟨m', h⟩ := LoopEnd.ok?_eq_some.mp hok
    obtain ⟨txn', htxn', hc⟩ := builders_conserve_value.2.2 _ _ _ _ _ rfl h
    cases Option.some_injective _ (htxn.symm.trans htxn')
    exact ⟨tt, m', h, txn, htxn, hc hin hcarry hfit⟩

end OrdWallet
