import OrdWallet.Runes.Decipher
import OrdWallet.Conservation

/-!
# Where the runes go

The transfer rules of the Runes protocol: a cenotaph burns the inputs' runes; otherwise each edict
moves to its output its amount of its rune (all of it for `0`) as far as it is unallocated, and
the rest goes to the first output that is not an `OP_RETURN`. An edict that splits over all the
outputs moves nothing here, and one of rune `0:0`, which names the etched rune and which ord skips
when nothing is etched, moves that rune like any other. For the rune builders' outputs, the
receiver gets the edict's amount and the sender's postage the rest.
-/

namespace OrdWallet.Runes

/-- The runes of the inputs still to allocate, and those allocated to each output
(`unallocated` and `allocated` of the Runes updater). -/
structure Allocation where
  unallocated : RuneId → ℕ
  allocated : List (RuneId → ℕ)

/-- One edict: to one of the outputs, `amount` of its rune, or all of it for `0`, as far as it is
unallocated. -/
def Allocation.applyEdict (s : Allocation) (e : Edict) : Allocation :=
  if e.output < s.allocated.length then
    let moved := if e.amount = 0 then s.unallocated e.id else min e.amount (s.unallocated e.id)
    ⟨Function.update s.unallocated e.id (s.unallocated e.id - moved),
      s.allocated.modify (fun b => Function.update b e.id (b e.id + moved)) e.output⟩
  else s

/-- The first output that is not an `OP_RETURN`. -/
def firstSpendable (txn : Transaction) : Option ℕ :=
  txn.output.findIdx? fun o => o.scriptPubkey.head? != some 0x6a

/-- The runes each output receives, the inputs carrying `inputs r` of each rune `r`: a cenotaph
burns everything; otherwise the Runestone's edicts apply in order, and what is left goes to the
first output that is not an `OP_RETURN`. -/
def allocate (txn : Transaction) (inputs : RuneId → ℕ) : List (RuneId → ℕ) :=
  let empty := txn.output.map fun _ _ => 0
  let edicts := match decipher txn with
    | some (.runestone edicts) => edicts
    | _ => []
  let s := edicts.foldl Allocation.applyEdict ⟨inputs, empty⟩
  match decipher txn, firstSpendable txn with
  | some .cenotaph, _ => empty
  | _, some i => s.allocated.modify (fun b r => b r + s.unallocated r) i
  | _, none => s.allocated

/-- The units of rune `r` that reach the outputs paying `script`. -/
def received (txn : Transaction) (inputs : RuneId → ℕ) (script : List UInt8) (r : RuneId) : ℕ :=
  (((txn.output.zip (allocate txn inputs)).filter fun p => p.1.scriptPubkey == script).map
    fun p => p.2 r).sum

/-- The runes runic UTXOs carry as the manager records them: their balances of `runeid`. -/
def runicInputs (runeid : RuneId) (runicUtxos : List RunicUtxo) (r : RuneId) : ℕ :=
  if r = runeid then (runicUtxos.map (·.balance)).sum else 0

/-- Outputs that receive nothing add nothing, whatever script they pay. -/
theorem sum_zip_zeros (script : List UInt8) (r : RuneId) (l : List TxOut) :
    (((l.zip (List.replicate l.length fun (_ : RuneId) => (0 : ℕ))).filter
      fun p => p.1.scriptPubkey == script).map fun p => p.2 r).sum = 0 := by
  induction l with
  | nil => rfl
  | cons o l ih =>
    simp only [List.length_cons, List.replicate_succ, List.zip_cons_cons, List.filter_cons]
    split <;> simpa using ih

/-- A Runestone script pays no address. -/
theorem encipher_ne_scriptPubkey (rs : Runestone) (address : Address) :
    rs.encipher ≠ address.scriptPubkey := fun h =>
  address.not_opReturn (h ▸ Runestone.encipher_head rs)

section Shapes

variable {txn : Transaction} {inputs : RuneId → ℕ} {runeid : RuneId} {amount postage : ℕ}
  {s r : Address} {rest : List TxOut}

/-- With rune change, the builders' outputs open with the Runestone and the postage of the
sender and of the receiver: the edict moves its amount (all of it for `0`) to the receiver's
postage, and the rest goes to the sender's. -/
theorem received_of_runestone
    (hout : txn.output = ⟨0, (transferRunestone runeid amount).encipher⟩ :: payTo s postage ::
      payTo r postage :: rest)
    (hvalid : runeid.valid = true) (hsr : s.scriptPubkey ≠ r.scriptPubkey) :
    let moved := if amount = 0 then inputs runeid else min amount (inputs runeid)
    received txn inputs r.scriptPubkey runeid = moved ∧
      received txn inputs s.scriptPubkey runeid = inputs runeid - moved := by
  have hdec : decipher txn = some (.runestone [⟨runeid, amount, 2⟩]) :=
    decipher_encipher (show txn.output = [] ++ _ from hout) (fun o ho => absurd ho
      (List.not_mem_nil o)) fun e he => by
        rw [List.mem_singleton.mp he, hout]
        exact ⟨hvalid, by simp⟩
  have hfirst : firstSpendable txn = some 1 := by
    simp [firstSpendable, hout, List.findIdx?_cons, Runestone.encipher, payTo, s.not_opReturn]
  simp only [received, allocate, hdec, hfirst, hout, List.foldl_cons, List.foldl_nil,
    Allocation.applyEdict, List.map_cons, List.length_cons]
  simp [encipher_ne_scriptPubkey, hsr, hsr.symm, payTo, sum_zip_zeros, Function.update]

/-- Without rune change, the builders' outputs open with the receiver's postage and the others
pay addresses: there is no Runestone, and every rune goes to the receiver's postage. -/
theorem received_of_postage (hout : txn.output = payTo r postage :: rest)
    (hrest : ∀ o ∈ rest, ∃ address, o = payTo address o.value)
    (hsr : s.scriptPubkey ≠ r.scriptPubkey) :
    received txn inputs r.scriptPubkey runeid = inputs runeid ∧
      received txn inputs s.scriptPubkey runeid = 0 := by
  have hdec : decipher txn = none := by
    refine decipher_eq_none fun o ho => ?_
    rw [hout] at ho
    rcases List.mem_cons.mp ho with rfl | ho
    · exact isRunestoneScript_payTo r postage
    · obtain ⟨address, hpay⟩ := hrest o ho
      rw [hpay]
      exact isRunestoneScript_payTo address _
  have hfirst : firstSpendable txn = some 0 := by
    simp [firstSpendable, hout, List.findIdx?_cons, payTo, r.not_opReturn]
  simp only [received, allocate, hdec, hfirst, hout, List.foldl_nil, List.map_cons]
  simp [hsr.symm, payTo, sum_zip_zeros]

/-- The rune outputs of either builder, followed by outputs paying addresses: the receiver gets
the edict's amount (all for `0`) when the Runestone is there and everything otherwise, the sender
the rest. -/
theorem received_of_runeOutputs (inputs : RuneId → ℕ) {needChange : Bool}
    (hout : txn.output = runeOutputs needChange runeid amount s r postage ++ rest)
    (hrest : ∀ o ∈ rest, ∃ address, o = payTo address o.value)
    (hvalid : runeid.valid = true) (hsr : s.scriptPubkey ≠ r.scriptPubkey) :
    let moved := if needChange then (if amount = 0 then inputs runeid else min amount (inputs runeid))
      else inputs runeid
    received txn inputs r.scriptPubkey runeid = moved ∧
      received txn inputs s.scriptPubkey runeid = inputs runeid - moved := by
  cases needChange with
  | false =>
    obtain ⟨hr, hs⟩ := received_of_postage hout hrest hsr
    exact ⟨hr, by simpa using hs⟩
  | true => exact received_of_runestone hout hvalid hsr

end Shapes


end OrdWallet.Runes

namespace OrdWallet

/-- The rune part of a rune or combined result: the rune, the amount sent, the runic UTXOs drawn,
and the sender's and the receiver's address. -/
def TransactionType.runeTransfer? :
    TransactionType → Option (RuneId × ℕ × List RunicUtxo × Address × Address)
  | runestone _ _ _ _ runeid amount _ runicUtxos _ _ senderAddress receiverAddress _ =>
    some (runeid, amount, runicUtxos, senderAddress, receiverAddress)
  | combined _ _ senderAddress receiverAddress _ _ runicUtxos _ _ runeid runeAmount _ _ _ _ =>
    some (runeid, runeAmount, runicUtxos, senderAddress, receiverAddress)
  | _ => none

open Runes

section Builders

variable {req : Request} {fee : ℕ} {m m' : UtxoManager} {txn : Transaction} {tt : TransactionType}
  {runeid : RuneId} {amount : ℕ} {runicUtxos : List RunicUtxo} {s r : Address}

/-- In one iteration's rune or combined transaction, of the runes the drawn UTXOs carry, the
receiver's outputs get the edict's amount (all of them for `0`) when rune change is needed and
all of them otherwise, and the sender's outputs the rest. The amount is at most the `u128` sum of
the drawn balances. -/
theorem Request.received_of_build (hfee : fee < 2 ^ 64)
    (h : req.build fee m = some (.ok (txn, tt), m'))
    (hr : tt.runeTransfer? = some (runeid, amount, runicUtxos, s, r))
    (hvalid : runeid.valid = true) (hsr : s.scriptPubkey ≠ r.scriptPubkey) :
    let total := (runicUtxos.map (·.balance)).sum
    let moved := if tt.needChange then (if amount = 0 then total else min amount total) else total
    amount ≤ sumBalances runicUtxos ∧
      tt.needChange = (decide (amount < sumBalances runicUtxos) || decide (1 < runicUtxos.length)) ∧
      received txn (runicInputs runeid runicUtxos) r.scriptPubkey runeid = moved ∧
      received txn (runicInputs runeid runicUtxos) s.scriptPubkey runeid = total - moved := by
  obtain ⟨changes, hout, hch⟩ := Request.output_of_build hfee h
  have hpay : ∀ o ∈ changes, ∃ address, o = payTo address o.value := fun o ho => (hch o ho).2
  have hin : runicInputs runeid runicUtxos runeid = (runicUtxos.map (·.balance)).sum := if_pos rfl
  cases req with
  | bitcoin =>
    obtain ⟨_, -, rfl⟩ := Request.build_eq_ok h
    cases hr
  | legoBitcoin arg =>
    obtain ⟨_, _, -, rfl⟩ := Request.build_eq_ok h
    cases hr
  | runestone args =>
    obtain ⟨ru, fu, hb, rfl⟩ := Request.build_eq_ok h
    simp only [TransactionType.runeTransfer?, Option.some.injEq, Prod.mk.injEq] at hr
    obtain ⟨rfl, rfl, rfl, rfl, rfl⟩ := hr
    obtain ⟨m₁, required, feeTotal, hsel, -, -, -⟩ := RunestoneTxn.buildTransactionWithFee_ok hb
    obtain ⟨-, -, hle, -⟩ := selectRunic_ok hsel
    have hflow := received_of_runeOutputs (runicInputs args.runeid ru) hout hpay hvalid hsr
    rw [hin] at hflow
    exact ⟨hle, rfl, hflow⟩
  | combined req =>
    obtain ⟨ru, bu, fu, hb, rfl⟩ := Request.build_eq_ok h
    simp only [TransactionType.runeTransfer?, Option.some.injEq, Prod.mk.injEq] at hr
    obtain ⟨rfl, rfl, rfl, rfl, rfl⟩ := hr
    obtain ⟨m₁, m₂, required, btcTotal, feeTotal, hsel, -, -, -, -⟩ :=
      CombinedTxn.buildTransactionWithFee_ok hb
    obtain ⟨-, -, hle, -⟩ := selectRunic_ok hsel
    rw [Request.payments, List.append_assoc] at hout
    have hflow := received_of_runeOutputs (runicInputs req.runeid ru) hout
      (fun o ho => (List.mem_cons.mp ho).elim (fun h => ⟨req.receiverAddress, by rw [h]; rfl⟩)
        (hpay o)) hvalid hsr
    rw [hin] at hflow
    exact ⟨hle, rfl, hflow⟩

end Builders

/-- The `u128` running sum of rune balances is their sum while that fits in `u128`. -/
theorem sumBalances_eq {runicUtxos : List RunicUtxo}
    (h : (runicUtxos.map (·.balance)).sum < 2 ^ 128) :
    sumBalances runicUtxos = (runicUtxos.map (·.balance)).sum := by
  rw [sumBalances, @foldl_wrappingAdd RunicUtxo 128 0 RunicUtxo.balance runicUtxos
    (Nat.two_pow_pos 128), Nat.zero_add, Nat.mod_eq_of_lt h]

/-- For every rune or combined transfer that returns, sending a nonzero amount of a valid rune to
a receiver other than the sender, from runic UTXOs whose balances add up within `u128`: the
Runes transfer rules give the receiver's outputs exactly the amount, and the sender's outputs the
rest of what the runic UTXOs carry. -/
theorem runeTransfer_delivers_amount {fuel : ℕ} {req : Request} {m m' : UtxoManager}
    {tt : TransactionType} {runeid : RuneId} {amount : ℕ} {runicUtxos : List RunicUtxo}
    {s r : Address} (h : req.transfer fuel m = .returned (.ok tt) m')
    (hr : tt.runeTransfer? = some (runeid, amount, runicUtxos, s, r)) (hpos : 0 < amount)
    (hvalid : runeid.valid = true) (hsr : s.scriptPubkey ≠ r.scriptPubkey)
    (hbound : (runicUtxos.map (·.balance)).sum < 2 ^ 128) :
    ∃ txn, tt.unsignedTxn = some txn ∧
      received txn (runicInputs runeid runicUtxos) r.scriptPubkey runeid = amount ∧
      received txn (runicInputs runeid runicUtxos) s.scriptPubkey runeid =
        (runicUtxos.map (·.balance)).sum - amount := by
  obtain ⟨fee, txn, hb, hfee⟩ := Request.transfer_ok h
  have hlt := hfee ▸ recomputedFee_lt txn req.feePerVbytes
  obtain ⟨hle, hchange, hrcv, hsnd⟩ := Request.received_of_build hlt hb hr hvalid hsr
  rw [sumBalances_eq hbound] at hle hchange
  have hmoved : (if tt.needChange then (if amount = 0 then (runicUtxos.map (·.balance)).sum
      else min amount (runicUtxos.map (·.balance)).sum) else (runicUtxos.map (·.balance)).sum) =
      amount := by
    cases hnc : tt.needChange
    · rw [hnc] at hchange
      simp only [if_false, Bool.false_eq_true]
      simp only [Bool.false_eq, Bool.or_eq_false_iff, decide_eq_false_iff_not] at hchange
      omega
    · simp only [if_true, Nat.pos_iff_ne_zero.mp hpos, if_false]
      exact Nat.min_eq_left hle
  exact ⟨txn, Request.unsignedTxn_of_build hlt hb, hrcv.trans hmoved, hsnd.trans (by rw [hmoved])⟩

/-- `withdraw_runestone` of 3 of the 5 units. -/
def partRuneArgs : RunestoneTxn.RuneTransferArgs := { leakArgs with amount := 3 }

set_option maxRecDepth 8000 in
theorem partRuneTransfer_delivers_amount :
    ∃ tt m', Request.transfer 3 (.runestone partRuneArgs) (runeSenderPools runicSample) =
        .returned (.ok tt) m' ∧
      tt.runeTransfer? = some (sampleRune, 3, [runicSample], partRuneArgs.senderAddress,
        partRuneArgs.receiverAddress) ∧
      ∃ txn, tt.unsignedTxn = some txn ∧
        received txn (runicInputs sampleRune [runicSample])
          partRuneArgs.receiverAddress.scriptPubkey sampleRune = 3 ∧
        received txn (runicInputs sampleRune [runicSample])
          partRuneArgs.senderAddress.scriptPubkey sampleRune = ([runicSample].map (·.balance)).sum - 3 := by
  obtain ⟨tt, hok⟩ := Option.isSome_iff_exists.mp
    (by decide : (Request.transfer 3 (.runestone partRuneArgs) (runeSenderPools runicSample)).ok?.isSome)
  obtain ⟨m', h⟩ := LoopEnd.ok?_eq_some.mp hok
  have hr : (Request.transfer 3 (.runestone partRuneArgs) (runeSenderPools runicSample)).ok?.bind
      TransactionType.runeTransfer? = some (sampleRune, 3, [runicSample],
        partRuneArgs.senderAddress, partRuneArgs.receiverAddress) := by decide
  rw [hok, Option.some_bind] at hr
  exact ⟨tt, m', h, hr, runeTransfer_delivers_amount h hr (by decide) (by decide) (by decide)
    (by decide)⟩

/-- `withdraw_runestone` of amount `0`, which no entry point refuses. -/
def zeroRuneArgs : RunestoneTxn.RuneTransferArgs := { leakArgs with amount := 0 }

set_option maxRecDepth 8000 in
/-- Sending `0` units of the rune from a UTXO carrying 5: the selection draws the UTXO, so rune
change is needed, and the Runestone's edict of amount `0` to output 2 moves every unallocated
unit. The receiver's postage gets all 5 units and the sender's none. -/
theorem zeroRuneTransfer_sends_everything :
    ∃ tt m', RunestoneTxn.transfer 3 zeroRuneArgs (runeSenderPools runicSample) =
        .returned (.ok tt) m' ∧
      tt.runeTransfer? = some (sampleRune, 0, [runicSample], zeroRuneArgs.senderAddress,
        zeroRuneArgs.receiverAddress) ∧
      ∃ txn, tt.unsignedTxn = some txn ∧
        received txn (runicInputs sampleRune [runicSample])
          zeroRuneArgs.receiverAddress.scriptPubkey sampleRune = 5 ∧
        received txn (runicInputs sampleRune [runicSample])
          zeroRuneArgs.senderAddress.scriptPubkey sampleRune = 0 := by
  obtain ⟨tt, hok⟩ := Option.isSome_iff_exists.mp
    (by decide : (RunestoneTxn.transfer 3 zeroRuneArgs (runeSenderPools runicSample)).ok?.isSome)
  obtain ⟨m', h⟩ := LoopEnd.ok?_eq_some.mp hok
  have hr : (RunestoneTxn.transfer 3 zeroRuneArgs (runeSenderPools runicSample)).ok?.bind
      TransactionType.runeTransfer? = some (sampleRune, 0, [runicSample],
        zeroRuneArgs.senderAddress, zeroRuneArgs.receiverAddress) := by decide
  have hv : ((RunestoneTxn.transfer 3 zeroRuneArgs (runeSenderPools runicSample)).ok?.bind
      (·.unsignedTxn)).map (fun txn =>
        (received txn (runicInputs sampleRune [runicSample])
          zeroRuneArgs.receiverAddress.scriptPubkey sampleRune,
        received txn (runicInputs sampleRune [runicSample])
          zeroRuneArgs.senderAddress.scriptPubkey sampleRune)) = some (5, 0) := by decide
  rw [hok, Option.some_bind] at hr hv
  obtain ⟨txn, htxn, hval⟩ := Option.map_eq_some'.mp hv
  obtain ⟨h₁, h₂⟩ := Prod.mk.inj hval
  exact ⟨tt, m', h, hr, txn, htxn, h₁, h₂⟩

end OrdWallet
