import OrdWallet.Withdrawal

/-!
# When the fee loop returns

Each `transfer` runs `loop { build at total_fee; if recomputed == total_fee { return }; give back;
total_fee = recomputed }` with no bound. Since every give-back restores the pools, each iteration
builds from the initial pools, and the loop follows the fees `0, g 0, g (g 0), …` of one map `g`.
It returns exactly when that sequence reaches a fee at which the build fails, panics, or
reproduces the fee. Nothing forces that: a fee that keeps a change output can recompute to a fee
that drops it, whose smaller transaction recomputes to the first fee again.
-/

namespace OrdWallet

section Loop

variable {ε β γ : Type} {build : ℕ → UtxoManager → Option (Except ε β × UtxoManager)}
  {txnOf : β → Transaction} {giveBack : β → UtxoManager → UtxoManager} {feePerVbytes : ℕ}

/-- A `transfer` over restoring give-backs returns, for some number of iterations, exactly when
the fees tried from zero reach one that stops the loop. -/
theorem map_feeLoop_returns_iff (g : β × ℕ → γ) (hr : Restores build giveBack) (m : UtxoManager) :
    (∃ fuel, (feeLoop build txnOf giveBack feePerVbytes fuel 0 m).map g ≠ .outOfFuel) ↔
      ∃ k f, feeAfter build txnOf feePerVbytes m 0 k = some f ∧
        Stops build txnOf feePerVbytes m f := by
  simp only [Ne, LoopEnd.map_eq_outOfFuel]
  exact feeLoop_ne_outOfFuel_iff hr m 0

end Loop

/-- For each of the four builders, `transfer` returns for some number of iterations exactly when
the fees tried from zero, each built from the unchanged initial pools, reach a fee at which the
build fails, panics, or reproduces that fee. -/
theorem transfer_returns_iff :
    (∀ addr account fromAddress toAddress amount paidBySender feePerVbytes m,
      (∃ fuel, PlainTxn.transfer fuel addr account fromAddress toAddress amount paidBySender
        feePerVbytes m ≠ .outOfFuel) ↔
      ∃ k f, feeAfter (PlainTxn.build addr fromAddress toAddress amount paidBySender) (·.1)
          feePerVbytes m 0 k = some f ∧
        Stops (PlainTxn.build addr fromAddress toAddress amount paidBySender) (·.1) feePerVbytes m f) ∧
    (∀ arg m, (∃ fuel, MultiSenderTxn.transfer fuel arg m ≠ .outOfFuel) ↔
      ∃ k f, feeAfter (MultiSenderTxn.build arg) (·.1) arg.feePerVbytes m 0 k = some f ∧
        Stops (MultiSenderTxn.build arg) (·.1) arg.feePerVbytes m f) ∧
    (∀ args m, (∃ fuel, RunestoneTxn.transfer fuel args m ≠ .outOfFuel) ↔
      ∃ k f, feeAfter (RunestoneTxn.build args) (·.1) args.feePerVbytes m 0 k = some f ∧
        Stops (RunestoneTxn.build args) (·.1) args.feePerVbytes m f) ∧
    (∀ req m, (∃ fuel, CombinedTxn.transfer fuel req m ≠ .outOfFuel) ↔
      ∃ k f, feeAfter (CombinedTxn.build req) (·.1) req.feePerVbytes m 0 k = some f ∧
        Stops (CombinedTxn.build req) (·.1) req.feePerVbytes m f) :=
  ⟨fun _ _ _ _ _ _ _ m => map_feeLoop_returns_iff _ PlainTxn.build_restores m,
    fun arg m => map_feeLoop_returns_iff _ (MultiSenderTxn.build_restores arg) m,
    fun args m => map_feeLoop_returns_iff _ (RunestoneTxn.build_restores args) m,
    fun req m => map_feeLoop_returns_iff _ (CombinedTxn.build_restores req) m⟩

/-- A sender whose pool holds one UTXO of 53 100 sats. -/
def cyclingPool : UtxoManager := UtxoManager.empty.recordBtcUtxos "sender" [⟨⟨7, 0⟩, 53100⟩]

set_option maxRecDepth 2000 in
/-- Sending 30 000 sats from that pool at `fee_per_vbytes = 100 000` never returns: at fee 0 the
change of 23 100 is kept, the 226-vbyte transaction costs 22 600; at 22 600 the change of 500 is
dust and dropped, the 192-vbyte transaction costs 19 200; at 19 200 the change of 3 900 is kept
again, and the fees alternate between 22 600 and 19 200. -/
theorem plainTransfer_cycles :
    ¬ ∃ fuel, PlainTxn.transfer fuel "sender" ⟨[1], none⟩ (Address.p2pkh (List.replicate 20 1))
      (Address.p2pkh (List.replicate 20 2)) 30000 true 100000 cyclingPool ≠ .outOfFuel := by
  rintro ⟨fuel, hret⟩
  apply hret
  rw [PlainTxn.transfer, LoopEnd.map_eq_outOfFuel]
  refine feeLoop_outOfFuel_of_closed PlainTxn.build_restores _
    (fun f => f = 0 ∨ f = 22600 ∨ f = 19200) ?_ fuel (Or.inl rfl)
  rintro f (rfl | rfl | rfl)
  · exact ⟨22600, by decide, by decide, Or.inr (Or.inl rfl)⟩
  · exact ⟨19200, by decide, by decide, Or.inr (Or.inr rfl)⟩
  · exact ⟨22600, by decide, by decide, Or.inr (Or.inl rfl)⟩

end OrdWallet
