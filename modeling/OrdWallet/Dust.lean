import OrdWallet.Rebuild

/-!
# Dust

Every builder compares only its change with `DUST_THRESHOLD`: a change of at most 1 000 sats is
left to the fee. The receiver's payment and the postage outputs carry the requested values as
they are, so a small request makes a dust output.
-/

namespace OrdWallet

/-- A kept change output pays its address a value above the dust threshold. -/
theorem changeOutput_spec {address : Address} {value : ℕ} {o : TxOut}
    (h : o ∈ changeOutput address value) :
    dustThreshold < o.value ∧ ∃ address, o = payTo address o.value := by
  unfold changeOutput at h
  split at h
  · rename_i hgt
    rw [List.mem_singleton.mp h]
    exact ⟨hgt, address, rfl⟩
  · exact absurd h (List.not_mem_nil o)

/-- Whether a result's transaction carries the Runestone and the sender's rune change: more of
the rune was drawn than is sent, or more than one runic UTXO. -/
def TransactionType.needChange : TransactionType → Bool
  | runestone _ _ _ _ _ amount _ runicUtxos _ _ _ _ _ =>
    amount < sumBalances runicUtxos || 1 < runicUtxos.length
  | combined _ _ _ _ _ _ runicUtxos _ _ _ runeAmount _ _ _ _ =>
    runeAmount < sumBalances runicUtxos || 1 < runicUtxos.length
  | _ => false

/-- The rune outputs: the Runestone, the sender's and the receiver's postage when rune change is
needed, else the receiver's postage. -/
def runeOutputs (needChange : Bool) (runeid : RuneId) (amount : ℕ)
    (senderAddress receiverAddress : Address) (postage : ℕ) : List TxOut :=
  if needChange then
    [⟨0, (transferRunestone runeid amount).encipher⟩, payTo senderAddress postage,
      payTo receiverAddress postage]
  else [payTo receiverAddress postage]

/-- The outputs a builder call makes at fee `fee` before any change: the receiver's payment, less
the fee when the receiver pays it, and the rune outputs. -/
def Request.payments (fee : ℕ) (needChange : Bool) : Request → List TxOut
  | .bitcoin _ _ _ toAddress amount paidBySender _ =>
    [payTo toAddress (if paidBySender then amount else wrappingSub 64 amount fee)]
  | .legoBitcoin arg =>
    [payTo arg.receiver (if arg.paidBySender then wrappingAdd 64 arg.amount0 arg.amount1
      else wrappingSub 64 (wrappingAdd 64 arg.amount0 arg.amount1) fee)]
  | .runestone args =>
    runeOutputs needChange args.runeid args.amount args.senderAddress args.receiverAddress
      (args.postage.getD defaultPostage)
  | .combined req =>
    runeOutputs needChange req.runeid req.runeAmount req.senderAddress req.receiverAddress
        (req.postage.getD defaultPostage) ++ [payTo req.receiverAddress req.btcAmount]

/-- Every output an iteration adds after its payments is a change output: it pays an address a
value above the dust threshold. -/
theorem Request.output_of_build {req : Request} {fee : ℕ} {m m' : UtxoManager}
    {txn : Transaction} {tt : TransactionType} (hfee : fee < 2 ^ 64)
    (h : req.build fee m = some (.ok (txn, tt), m')) :
    ∃ changes, txn.output = req.payments fee tt.needChange ++ changes ∧
      ∀ o ∈ changes, dustThreshold < o.value ∧ ∃ address, o = payTo address o.value := by
  cases req with
  | bitcoin =>
    obtain ⟨utxos, hb, rfl⟩ := Request.build_eq_ok h
    obtain ⟨total, -, rfl⟩ := PlainTxn.buildTransactionWithFee_ok (Option.some.inj hb)
    exact ⟨_, rfl, fun _ => changeOutput_spec⟩
  | legoBitcoin arg =>
    obtain ⟨u0, u1, hb, rfl⟩ := Request.build_eq_ok h
    obtain ⟨s0, s1, -, rfl⟩ := MultiSenderTxn.buildTransactionWithFee_ok (Option.some.inj hb)
    rw [wrappingSub_wrappingSub (by rw [fee_halves]; omega), fee_halves]
    exact ⟨_, rfl, fun o ho => (List.mem_append.mp ho).elim changeOutput_spec
      changeOutput_spec⟩
  | runestone args =>
    obtain ⟨runicUtxos, feeUtxos, hb, rfl⟩ := Request.build_eq_ok h
    obtain ⟨m₁, required, feeTotal, -, -, -, rfl⟩ := RunestoneTxn.buildTransactionWithFee_ok hb
    exact ⟨_, rfl, fun _ => changeOutput_spec⟩
  | combined req =>
    obtain ⟨runicUtxos, btcUtxos, feeUtxos, hb, rfl⟩ := Request.build_eq_ok h
    obtain ⟨m₁, m₂, required, btcTotal, feeTotal, -, -, -, -, rfl⟩ :=
      CombinedTxn.buildTransactionWithFee_ok hb
    simp only [Request.payments, List.append_assoc, List.singleton_append]
    refine ⟨_, rfl, fun o ho => ?_⟩
    split at ho
    · exact (List.mem_append.mp ho).elim changeOutput_spec
        changeOutput_spec
    · exact changeOutput_spec ho

/-- For every builder call that returns a transaction, the transaction's outputs are the
request's payments at the returned fee (the Runestone and the postage outputs when rune change
is needed) followed by change outputs, each above `DUST_THRESHOLD`; only the change is compared
with the threshold. -/
theorem transfer_change_above_dust {fuel : ℕ} {req : Request} {m m' : UtxoManager}
    {tt : TransactionType} (h : req.transfer fuel m = .returned (.ok tt) m') :
    ∃ fee txn changes, req.build fee m = some (.ok (txn, tt), m') ∧
      txn.output = req.payments fee tt.needChange ++ changes ∧
      ∀ o ∈ changes, dustThreshold < o.value := by
  obtain ⟨fee, txn, hb, hfee⟩ := Request.transfer_ok h
  obtain ⟨changes, hout, hdust⟩ :=
    Request.output_of_build (hfee ▸ recomputedFee_lt txn req.feePerVbytes) hb
  exact ⟨fee, txn, changes, hb, hout, fun o ho => (hdust o ho).1⟩

/-- A sender with one UTXO of 5 000 sats. -/
def dustPool : UtxoManager := UtxoManager.empty.recordBtcUtxos "sender" [⟨⟨4, 0⟩, 5000⟩]

/-- `withdraw_bitcoin` of `amount` sats from `dustPool` at zero fee. -/
def dustSend (amount : ℕ) : Request :=
  .bitcoin "sender" ⟨[1], none⟩ (Address.p2pkh (List.replicate 20 1))
    (Address.p2pkh (List.replicate 20 2)) amount true 0

set_option maxRecDepth 2000 in
theorem dustSend_change_above_dust :
    ∃ tt m', (dustSend 500).transfer 1 dustPool = .returned (.ok tt) m' ∧
      ∃ fee txn changes, (dustSend 500).build fee dustPool = some (.ok (txn, tt), m') ∧
        txn.output = (dustSend 500).payments fee tt.needChange ++ changes ∧
        ∀ o ∈ changes, dustThreshold < o.value := by
  obtain ⟨tt, hok⟩ := Option.isSome_iff_exists.mp
    (by decide : ((dustSend 500).transfer 1 dustPool).ok?.isSome = true)
  obtain ⟨m', h⟩ := LoopEnd.ok?_eq_some.mp hok
  exact ⟨tt, m', h, transfer_change_above_dust h⟩

set_option maxRecDepth 2000 in
/-- `withdraw_bitcoin` of 500 sats at zero fee: the transaction pays the receiver 500 sats, below
the dust threshold, and keeps a change of 4 500. -/
theorem smallPayment_is_dust :
    ∃ tt m', (dustSend 500).transfer 1 dustPool = .returned (.ok tt) m' ∧
      tt.unsignedTxn.map (fun txn => txn.output.map (·.value)) = some [500, 4500] := by
  obtain ⟨tt, hok⟩ := Option.isSome_iff_exists.mp
    (by decide : ((dustSend 500).transfer 1 dustPool).ok?.isSome = true)
  obtain ⟨m', h⟩ := LoopEnd.ok?_eq_some.mp hok
  have hv : (((dustSend 500).transfer 1 dustPool).ok?.bind (·.unsignedTxn)).map
      (fun txn => txn.output.map (·.value)) = some [500, 4500] := by decide
  rw [hok, Option.some_bind] at hv
  exact ⟨tt, m', h, hv⟩

end OrdWallet
