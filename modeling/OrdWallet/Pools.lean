import OrdWallet.Rebuild

/-!
# What a transfer does to the pools

A successful call of any builder leaves each pool as it was less exactly the UTXOs the result
lists, and those are the inputs of the transaction that is signed. A failed plain or two-sender
call gives everything back. The rune and combined builders do not: a stage that fails gives back
only its own pool, and the UTXOs the earlier stages drew stay out of the manager.
-/

namespace OrdWallet

/-- Every builder call that returns a transaction took from the pools exactly the UTXOs its
result lists, each from the pool the result names, and those UTXOs are the inputs, in order, of
the transaction `build_and_submit` signs. -/
theorem transfer_takes_inputs {fuel : ℕ} {req : Request} {m m' : UtxoManager}
    {tt : TransactionType} (h : req.transfer fuel m = .returned (.ok tt) m') :
    Takes m m' tt.plainDrawn tt.runicDrawn ∧
      ∃ txn, tt.unsignedTxn = some txn ∧ txn.input = tt.spentUtxos.map unsignedInput := by
  obtain ⟨fee, txn, hb, hfee⟩ := Request.transfer_ok h
  exact ⟨Request.transfer_ok_takes h, txn,
    Request.unsignedTxn_of_build (hfee ▸ recomputedFee_lt txn req.feePerVbytes) hb,
    Request.input_of_build hb⟩

set_option maxRecDepth 4000 in
theorem pairTransfer_takes_inputs :
    ∃ tt m', pairRequest.transfer 3 pairPools = .returned (.ok tt) m' ∧
      Takes pairPools m' tt.plainDrawn tt.runicDrawn ∧
      ∃ txn, tt.unsignedTxn = some txn ∧ txn.input = tt.spentUtxos.map unsignedInput := by
  obtain ⟨tt, hok⟩ := Option.isSome_iff_exists.mp
    (by decide : (pairRequest.transfer 3 pairPools).ok?.isSome = true)
  obtain ⟨m', h⟩ := LoopEnd.ok?_eq_some.mp hok
  exact ⟨tt, m', h, transfer_takes_inputs h⟩

/-- A failed plain or two-sender transfer leaves every pool as it was. -/
theorem btc_transfer_error_restores :
    (∀ fuel addr account fromAddress toAddress amount paidBySender feePerVbytes m m' e,
      PlainTxn.transfer fuel addr account fromAddress toAddress amount paidBySender feePerVbytes m =
        .returned (.error e) m' → m' = m) ∧
    (∀ fuel arg m m' e, MultiSenderTxn.transfer fuel arg m = .returned (.error e) m' → m' = m) := by
  refine ⟨fun _ _ _ _ _ _ _ _ _ _ _ h => ?_, fun _ _ _ _ _ h => ?_⟩
  · obtain ⟨fee, hb⟩ := PlainTxn.transfer_error h
    exact (PlainTxn.buildTransactionWithFee_error hb).1
  · obtain ⟨fee, hb⟩ := MultiSenderTxn.transfer_error h
    obtain ⟨t0, t1, hs⟩ := MultiSenderTxn.buildTransactionWithFee_error hb
    exact (MultiSenderTxn.selectUtxos_error hs).1

/-- The two-sender send of 60 000 sats from the same pools: the second sender falls short. -/
def pairShortArg : MultiSenderTxn.MultiSendTransactionArgument :=
  { addr0 := "alice", addr1 := "bob", address0 := Address.p2pkh (List.replicate 20 1)
    address1 := Address.p2pkh (List.replicate 20 2), receiver := Address.p2pkh (List.replicate 20 3)
    account0 := ⟨[1], none⟩, account1 := ⟨[2], none⟩, amount0 := 15000, amount1 := 45000
    feePerVbytes := 1000, paidBySender := true }

set_option maxRecDepth 4000 in
theorem shortTransfers_restore :
    (∃ m', PlainTxn.transfer 1 "alice" ⟨[1], none⟩ (Address.p2pkh (List.replicate 20 1))
        (Address.p2pkh (List.replicate 20 3)) 30000 true 1000 pairPools =
          .returned (.error 30000) m' ∧ m' = pairPools) ∧
      ∃ m', MultiSenderTxn.transfer 1 pairShortArg pairPools = .returned (.error (15000, 45000)) m' ∧
        m' = pairPools := by
  obtain ⟨m₁, h₁⟩ := LoopEnd.error?_eq_some.mp (by decide : (PlainTxn.transfer 1 "alice" ⟨[1], none⟩
    (Address.p2pkh (List.replicate 20 1)) (Address.p2pkh (List.replicate 20 3)) 30000 true 1000
      pairPools).error? = some 30000)
  obtain ⟨m₂, h₂⟩ := LoopEnd.error?_eq_some.mp
    (by decide : (MultiSenderTxn.transfer 1 pairShortArg pairPools).error? = some (15000, 45000))
  exact ⟨⟨m₁, h₁, btc_transfer_error_restores.1 _ _ _ _ _ _ _ _ _ _ _ h₁⟩,
    m₂, h₂, btc_transfer_error_restores.2 _ _ _ _ _ h₂⟩

/-! ### A rune transfer that keeps the runic UTXOs it drew -/

/-- The rune `840000:1`. -/
def sampleRune : RuneId := ⟨840000, 1⟩

/-- A UTXO of 546 sats carrying 5 units of the rune. -/
def runicSample : RunicUtxo := ⟨⟨⟨9, 0⟩, 546⟩, 5⟩

/-- The sender holds the runic UTXO and one plain UTXO of 5 000 sats. -/
def leakPools : UtxoManager :=
  (UtxoManager.empty.recordRunicUtxos "sender" sampleRune [runicSample]).recordBtcUtxos "sender"
    [⟨⟨3, 1⟩, 5000⟩]

/-- `withdraw_runestone` of all 5 units to another address, the sender paying the fee. -/
def leakArgs : RunestoneTxn.RuneTransferArgs where
  runeid := sampleRune
  amount := 5
  senderAddr := "sender"
  receiverAddr := "receiver"
  senderAccount := ⟨[1], none⟩
  receiverAccount := ⟨[1], none⟩
  senderAddress := Address.p2pkh (List.replicate 20 1)
  receiverAddress := Address.p2pkh (List.replicate 20 2)
  feePerVbytes := 1000
  paidBySender := true
  postage := none

/-- The rune transfer draws the runic UTXO, owes `10 000 - 546 = 9 454` sats of postage, finds only
5 000 in the sender's plain pool, gives that back and fails; the runic UTXO is not given back,
and the sender's runic pool ends empty. -/
theorem runeTransfer_keeps_runic_utxos :
    leakPools.runic "sender" sampleRune = [runicSample] ∧
      ∃ m', RunestoneTxn.transfer 1 leakArgs leakPools = .returned (.error (0, 0)) m' ∧
        m'.runic "sender" sampleRune = [] ∧ m'.bitcoin "sender" = leakPools.bitcoin "sender" := by
  obtain ⟨m', h⟩ := LoopEnd.error?_eq_some.mp
    (by decide : (RunestoneTxn.transfer 1 leakArgs leakPools).error? = some (0, 0))
  have hm : (RunestoneTxn.transfer 1 leakArgs leakPools).manager?.map
      (fun m => (m.runic "sender" sampleRune, m.bitcoin "sender")) =
        some ([], leakPools.bitcoin "sender") := by decide
  rw [h, LoopEnd.manager?_returned, Option.map_some', Option.some.injEq, Prod.mk.injEq] at hm
  exact ⟨by decide, m', h, hm⟩

end OrdWallet
