import OrdWallet.Concurrency

/-!
# A principal's pools move only in calls that name it

A builder call draws only from the pools of its senders and of the payer of its fee, whether it
returns a transaction or fails, and a synchronization records only into the pools of the address it
is given. So along every interleaving of update calls, the pools of an address that no call names
as a principal and no synchronization records are exactly as they were. Naming is the only guard:
`withdraw_bitcoin_from_multiple_addresses` draws from the pools of whichever `principal0` its
caller names.
-/

namespace OrdWallet

/-- `m'` holds the same pools of `a` as `m`. -/
def UtxoManager.SameAt (a : String) (m m' : UtxoManager) : Prop :=
  m'.bitcoin a = m.bitcoin a ∧ ∀ r, m'.runic a r = m.runic a r

namespace UtxoManager.SameAt

variable {a : String} {m m₁ m₂ : UtxoManager}

theorem refl (m : UtxoManager) : SameAt a m m := ⟨rfl, fun _ => rfl⟩

theorem trans (h₁ : SameAt a m m₁) (h₂ : SameAt a m₁ m₂) : SameAt a m m₂ :=
  ⟨h₂.1.trans h₁.1, fun r => (h₂.2 r).trans (h₁.2 r)⟩

end UtxoManager.SameAt

/-- The plain UTXOs a builder drew from `addr` are drawn from no other address. -/
theorem plainAt_of_ne {addr a : String} {utxos : List Utxo} (h : a ≠ addr) :
    plainAt addr utxos a = [] :=
  if_neg h

/-- The runic UTXOs a builder drew from `addr` are drawn from no other address. -/
theorem runicAt_of_ne {addr a : String} {runeid r : RuneId} {utxos : List RunicUtxo}
    (h : a ≠ addr) : runicAt addr runeid utxos a r = [] :=
  if_neg fun h' => h h'.1

/-- Handing out nothing from the pools of `a` leaves them. -/
theorem Takes.sameAt {m m' : UtxoManager} {plain : String → List Utxo}
    {runic : String → RuneId → List RunicUtxo} {a : String} (h : Takes m m' plain runic)
    (hp : plain a = []) (hr : ∀ r, runic a r = []) : UtxoManager.SameAt a m m' :=
  ⟨by simpa [hp] using h.1 a, fun r => by simpa [hr r] using h.2 a r⟩

/-- The addresses whose pools a builder call draws from: its senders, and the payer of its
fee. -/
def Request.addrs : Request → List String
  | .bitcoin addr .. => [addr]
  | .legoBitcoin arg => [arg.addr0, arg.addr1]
  | .runestone args =>
    [args.senderAddr, if args.paidBySender then args.senderAddr else args.receiverAddr]
  | .combined req => [req.fromAddr, req.receiverAddr]

/-- A builder call that fails leaves the pools of every address it does not draw from: a plain
or two-sender build gives its pools back, and a rune or combined build keeps only what it drew
from its sender. -/
theorem Request.transfer_error_sameAt {req : Request} {fuel : ℕ} {m m' : UtxoManager}
    {s : Shortfall} (h : req.transfer fuel m = .returned (.error s) m') {a : String}
    (ha : a ∉ req.addrs) : UtxoManager.SameAt a m m' := by
  cases req <;>
    simp only [Request.addrs, List.mem_cons, List.not_mem_nil, or_false, not_or] at ha <;>
    obtain ⟨_, h, -⟩ := LoopEnd.mapError_eq_returned_error.mp h
  case bitcoin =>
    obtain ⟨_, hb⟩ := PlainTxn.transfer_error h
    obtain ⟨rfl, -⟩ := PlainTxn.buildTransactionWithFee_error hb
    exact .refl _
  case legoBitcoin =>
    obtain ⟨_, hb⟩ := MultiSenderTxn.transfer_error h
    obtain ⟨_, _, hs⟩ := MultiSenderTxn.buildTransactionWithFee_error hb
    obtain ⟨rfl, -⟩ := MultiSenderTxn.selectUtxos_error hs
    exact .refl _
  case runestone =>
    obtain ⟨_, hb⟩ := RunestoneTxn.transfer_error h
    rcases RunestoneTxn.buildTransactionWithFee_error hb with
      ⟨-, rfl, -⟩ | ⟨_, _, _, _, _, hr, -, hf⟩
    · exact .refl _
    · obtain ⟨-, rfl, -⟩ := selectBitcoin_error hf
      exact (takes_selectRunic hr).sameAt rfl fun _ => runicAt_of_ne ha.1
  case combined =>
    obtain ⟨_, hb⟩ := CombinedTxn.transfer_error h
    rcases CombinedTxn.buildTransactionWithFee_error hb with rfl | ⟨_, _, _, hr⟩ |
        ⟨_, _, _, _, _, _, hr, hbtc⟩
    · exact .refl _
    · exact (takes_selectRunic hr).sameAt rfl fun _ => runicAt_of_ne ha.1
    · exact ((takes_selectRunic hr).trans (takes_selectBitcoin hbtc)).sameAt
        (by simp [plainAt_of_ne ha.1]) fun _ => by simp [runicAt_of_ne ha.1]

/-- A builder call that returns a transaction took its inputs from the pools of its senders and
of its fee payer alone. -/
theorem Request.transfer_ok_sameAt {req : Request} {fuel : ℕ} {m m' : UtxoManager}
    {tt : TransactionType} (h : req.transfer fuel m = .returned (.ok tt) m') {a : String}
    (ha : a ∉ req.addrs) : UtxoManager.SameAt a m m' := by
  obtain ⟨_, _, hb, -⟩ := Request.transfer_ok h
  have ht := Request.transfer_ok_takes h
  cases req <;> simp only [Request.addrs, List.mem_cons, List.not_mem_nil, or_false, not_or] at ha
  case bitcoin =>
    obtain ⟨_, -, rfl⟩ := Request.build_eq_ok hb
    exact ht.sameAt (plainAt_of_ne ha) fun _ => rfl
  case legoBitcoin =>
    obtain ⟨_, _, -, rfl⟩ := Request.build_eq_ok hb
    exact ht.sameAt (by simp [TransactionType.plainDrawn, plainAt_of_ne ha.1, plainAt_of_ne ha.2])
      fun _ => rfl
  case runestone =>
    obtain ⟨_, _, -, rfl⟩ := Request.build_eq_ok hb
    exact ht.sameAt (plainAt_of_ne ha.2) fun _ => runicAt_of_ne ha.1
  case combined =>
    obtain ⟨_, _, _, -, rfl⟩ := Request.build_eq_ok hb
    exact ht.sameAt (by simp [TransactionType.plainDrawn, plainAt_of_ne ha.1, plainAt_of_ne ha.2])
      fun _ => runicAt_of_ne ha.1

/-- Every address a method's builder call draws from holds the pools of a principal the method
names. -/
theorem EntryPoint.exists_party_of_mem_addrs {e : EntryPoint} {probe : ℕ} {x : String}
    (hx : x ∈ (e.request probe).addrs) : ∃ p ∈ e.parties, p.addr = x := by
  cases e <;> simp only [EntryPoint.request, Request.addrs, multipleAddressesArgument,
    runestoneArgs, feePaidByReceiverArgs, combinedRequest, if_true, List.mem_cons,
    List.not_mem_nil, or_false, or_self] at hx <;> rcases hx with rfl | rfl <;>
    exact ⟨_, by simp [EntryPoint.parties], rfl⟩

/-- The event leaves the pools of `a`: a synchronization of another address, or a builder call
that does not draw from `a`. -/
def Event.Spares (a : String) : Event → Prop
  | .syncBitcoin addr _ => addr ≠ a
  | .syncRunic addr _ _ => addr ≠ a
  | .transfer _ req => a ∉ req.addrs

/-- An event that spares `a` leaves the pools of `a`. -/
theorem World.sameAt_step {a : String} (w : World) {e : Event} (he : e.Spares a) :
    UtxoManager.SameAt a w.manager (w.step e).manager := by
  cases e with
  | syncBitcoin addr utxos => exact ⟨by simp [World.step, Ne.symm he], fun _ => rfl⟩
  | syncRunic addr runeid utxos => exact ⟨rfl, fun _ => by simp [World.step, Ne.symm he]⟩
  | transfer fuel req =>
    dsimp only [World.step]
    split
    · rename_i hr
      exact Request.transfer_ok_sameAt hr he
    · rename_i hr
      exact Request.transfer_error_sameAt hr he
    all_goals exact .refl _

/-- A run of events that spare `a` leaves the pools of `a`. -/
theorem World.Leads.sameAt {a : String} {w w' : World}
    (h : w.Leads (fun _ e => e.Spares a) w') : UtxoManager.SameAt a w.manager w'.manager := by
  obtain ⟨es, hes, rfl⟩ := h
  have hspare := World.Allowed.forall hes
  induction es generalizing w with
  | nil => exact .refl _
  | cons e es ih =>
    exact (w.sameAt_step (hspare e (List.mem_cons_self _ _))).trans
      (ih hes.2 fun e' he' => hspare e' (List.mem_cons_of_mem _ he'))

/-- The action names the address `a`: it begins a call of a method one of whose principals
holds the pools of `a`, or it synchronizes `a`. -/
def Action.Names (a : String) : Action → Prop
  | .call entry _ _ => ∃ p ∈ entry.parties, p.addr = a
  | .syncBitcoin addr _ => addr = a
  | .syncRunic addr _ _ => addr = a
  | .resume _ => False

/-- Actions that do not name `a` are runs of events that spare it. -/
theorem Execution.allowedRun_spares {s : Execution} {as : List Action} {a : String}
    (has : ∀ x ∈ as, ¬x.Names a) : s.AllowedRun (fun _ e => e.Spares a) as := by
  induction as generalizing s with
  | nil => trivial
  | cons x as ih =>
    refine ⟨?_, ih fun y hy => has y (List.mem_cons_of_mem _ hy)⟩
    have hx := has x (List.mem_cons_self _ _)
    cases x
    case call entry probe fuel => exact fun _ hmem => hx (EntryPoint.exists_party_of_mem_addrs hmem)
    case resume => trivial
    all_goals exact hx

/-- Along every interleaving of update calls at their awaits, from a world with no call in
flight, the pools of an address that no call names as a principal and no synchronization records
are exactly as they were: a principal's UTXOs leave its pools only in calls that name it, whether
their builds return a transaction or fail. -/
theorem interleaved_calls_spare_unnamed {w : World} {as : List Action} {a : String}
    (has : ∀ x ∈ as, ¬x.Names a) :
    ((Execution.mk w []).run as).world.manager.bitcoin a = w.manager.bitcoin a ∧
      ∀ r, ((Execution.mk w []).run as).world.manager.runic a r = w.manager.runic a r :=
  (Execution.sound_nil.run (Execution.allowedRun_spares has)).1.sameAt

/-- `pairWorld` with a third holder, `carol`, whom no call of `aliceBobInterleaving` names. -/
def trioWorld : World := pairWorld.step (.syncBitcoin "carol" [⟨⟨4, 0⟩, 5000⟩])

/-- While `bob`'s withdrawal spends `alice`'s UTXO, `carol`'s pools stay as they were. -/
theorem aliceBobInterleaving_spares_carol :
    (∀ x ∈ aliceBobInterleaving, ¬x.Names "carol") ∧
      ((Execution.mk trioWorld []).run aliceBobInterleaving).world.manager.bitcoin "carol" =
        trioWorld.manager.bitcoin "carol" ∧
      ∀ r, ((Execution.mk trioWorld []).run aliceBobInterleaving).world.manager.runic "carol" r =
        trioWorld.manager.runic "carol" r := by
  have has : ∀ x ∈ aliceBobInterleaving, ¬x.Names "carol" := by
    simp only [aliceBobInterleaving, List.mem_cons, List.mem_singleton, List.not_mem_nil, or_false]
    rintro _ (rfl | rfl | rfl) <;>
      simp [Action.Names, EntryPoint.parties, pairWithdrawal, aliceParty, bobParty]
  exact ⟨has, interleaved_calls_spare_unnamed has⟩

end OrdWallet
