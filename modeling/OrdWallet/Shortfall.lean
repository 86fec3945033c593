import OrdWallet.Pools

/-!
# The error descriptors

A failed `transfer` reports what it needed, and the entry points of `lib.rs` compare each part
with the current balance to decide which address to synchronize before retrying. The plain
builder reports the amount due, which its pool cannot meet, and so does the two-sender builder
for two distinct senders. The rune builder's fee stage needs the fee and the postage the runic
UTXOs do not carry, but reports the fee alone.
-/

namespace OrdWallet

/-- `get_bitcoin_balance` is the running sum of the selection loops over the whole pool. -/
theorem UtxoManager.getBitcoinBalance_eq (m : UtxoManager) (addr : String) :
    m.getBitcoinBalance addr = sumValues (m.bitcoin addr) := rfl

/-- The plain builder's descriptor exceeds the balance of the sender's pool as the call found
it, and so does one of the two-sender builder's for distinct senders. -/
theorem btc_shortfall_exceeds_balance :
    (∀ fuel addr account fromAddress toAddress amount paidBySender feePerVbytes m m' r,
      PlainTxn.transfer fuel addr account fromAddress toAddress amount paidBySender feePerVbytes m =
        .returned (.error r) m' → m.getBitcoinBalance addr < r) ∧
    (∀ fuel (arg : MultiSenderTxn.MultiSendTransactionArgument) m m' r0 r1, arg.addr0 ≠ arg.addr1 →
      MultiSenderTxn.transfer fuel arg m = .returned (.error (r0, r1)) m' →
        m.getBitcoinBalance arg.addr0 < r0 ∨ m.getBitcoinBalance arg.addr1 < r1) := by
  refine ⟨fun _ _ _ _ _ _ _ _ _ _ _ h => ?_, fun _ arg _ _ _ _ hne h => ?_⟩
  · obtain ⟨fee, hb⟩ := PlainTxn.transfer_error h
    obtain ⟨-, -, hlt⟩ := PlainTxn.buildTransactionWithFee_error hb
    exact hlt
  · obtain ⟨fee, hb⟩ := MultiSenderTxn.transfer_error h
    obtain ⟨t0, t1, hs⟩ := MultiSenderTxn.buildTransactionWithFee_error hb
    obtain ⟨-, he, hlt⟩ := MultiSenderTxn.selectUtxos_error hs
    obtain ⟨rfl, rfl⟩ := Prod.mk.inj he
    simpa [UtxoManager.getBitcoinBalance_eq, UtxoManager.drawBitcoin, Ne.symm hne] using hlt

set_option maxRecDepth 4000 in
theorem shortTransfers_exceed_balance :
    (∃ m', PlainTxn.transfer 1 "alice" ⟨[1], none⟩ (Address.p2pkh (List.replicate 20 1))
        (Address.p2pkh (List.replicate 20 3)) 30000 true 1000 pairPools =
          .returned (.error 30000) m' ∧ pairPools.getBitcoinBalance "alice" < 30000) ∧
      ∃ m', MultiSenderTxn.transfer 1 pairShortArg pairPools = .returned (.error (15000, 45000)) m' ∧
        (pairPools.getBitcoinBalance "alice" < 15000 ∨ pairPools.getBitcoinBalance "bob" < 45000) := by
  obtain ⟨m₁, h₁⟩ := LoopEnd.error?_eq_some.mp (by decide : (PlainTxn.transfer 1 "alice" ⟨[1], none⟩
    (Address.p2pkh (List.replicate 20 1)) (Address.p2pkh (List.replicate 20 3)) 30000 true 1000
      pairPools).error? = some 30000)
  obtain ⟨m₂, h₂⟩ := LoopEnd.error?_eq_some.mp
    (by decide : (MultiSenderTxn.transfer 1 pairShortArg pairPools).error? = some (15000, 45000))
  exact ⟨⟨m₁, h₁, btc_shortfall_exceeds_balance.1 _ _ _ _ _ _ _ _ _ _ _ h₁⟩,
    m₂, h₂, btc_shortfall_exceeds_balance.2 _ _ _ _ _ _ (by decide) h₂⟩

/-- The rune transfer of `leakArgs` fails in its fee stage, owing 9 454 sats of postage that the
sender's 5 000 sats do not cover, and reports `(0, 0)`: neither the rune balance nor the BTC
balance is below what the descriptor names. -/
theorem runeShortfall_omits_postage :
    ∃ m', RunestoneTxn.transfer 1 leakArgs leakPools = .returned (.error (0, 0)) m' ∧
      ¬(leakPools.getRunestoneBalance "sender" sampleRune < 0 ∨
        leakPools.getBitcoinBalance "sender" < 0) ∧
      leakPools.getBitcoinBalance "sender" <
        0 + wrappingSub 64 defaultPostage runicSample.utxo.value := by
  obtain ⟨m', h⟩ := LoopEnd.error?_eq_some.mp
    (by decide : (RunestoneTxn.transfer 1 leakArgs leakPools).error? = some (0, 0))
  exact ⟨m', h, by decide, by decide⟩

end OrdWallet
