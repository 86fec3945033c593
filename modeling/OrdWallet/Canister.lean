import OrdWallet.Orchestrator
import OrdWallet.Interleaving
import OrdWallet.Pools

/-!
# Update calls as runs of the event model

`OrdWallet.Orchestrator` runs one update method alone; `OrdWallet.Interleaving` cuts work into
events. A call whose synchronizer records UTXOs for the address it is given is a run of events:
synchronizations of the principals it names and builder calls of its request, in the method's
order, a trap ending the run at the world committed last. So the event model's invariant covers
every sequence of calls whose synchronizations are fresh. A call whose fee loop never returns is
left out: what its trap keeps depends on the await reached last.
-/

namespace OrdWallet

/-- A synchronization of `addr`. -/
def Event.SyncOf (addr : String) : Event → Prop
  | .syncBitcoin a _ => a = addr
  | .syncRunic a _ _ => a = addr
  | .transfer _ _ => False

namespace World

@[simp] theorem run_nil (w : World) : w.run [] = w := rfl

@[simp] theorem run_cons (w : World) (e : Event) (es : List Event) :
    w.run (e :: es) = (w.step e).run es := rfl

theorem run_append (w : World) (es fs : List Event) : w.run (es ++ fs) = (w.run es).run fs :=
  List.foldl_append _ _ _ _

theorem step_transfer_ok {m m' : UtxoManager} {built : List (List OutPoint)} {fuel : ℕ}
    {req : Request} {tt : TransactionType} (h : req.transfer fuel m = .returned (.ok tt) m') :
    World.step ⟨m, built⟩ (.transfer fuel req) =
      ⟨m', built ++ [tt.spentUtxos.map (·.outpoint)]⟩ := by
  simp [step, h]

theorem step_transfer_error {m m' : UtxoManager} {built : List (List OutPoint)} {fuel : ℕ}
    {req : Request} {s : Shortfall} (h : req.transfer fuel m = .returned (.error s) m') :
    World.step ⟨m, built⟩ (.transfer fuel req) = ⟨m', built⟩ := by
  simp [step, h]

/-- Events applied from `w`, each allowed by `ok` in the world it lands in. -/
def Allowed (ok : World → Event → Prop) : World → List Event → Prop
  | _, [] => True
  | w, e :: es => ok w e ∧ (w.step e).Allowed ok es

theorem allowed_append {ok : World → Event → Prop} {w : World} {es fs : List Event} :
    w.Allowed ok (es ++ fs) ↔ w.Allowed ok es ∧ (w.run es).Allowed ok fs := by
  induction es generalizing w with
  | nil => simp [Allowed]
  | cons e es ih => simp [Allowed, ih, and_assoc]

/-- An admissible run is one whose every event is fresh where it lands. -/
theorem admissible_iff_allowed {w : World} {es : List Event} :
    w.Admissible es ↔ w.Allowed (fun v e => v.Fresh e) es := by
  induction es generalizing w with
  | nil => exact Iff.rfl
  | cons e es ih => exact and_congr Iff.rfl ih

/-- Events that `ok` allows wherever they land are allowed along every run. -/
theorem allowed_of_forall {ok : World → Event → Prop} {w : World} {es : List Event}
    (h : ∀ v, ∀ e ∈ es, ok v e) : w.Allowed ok es := by
  induction es generalizing w with
  | nil => trivial
  | cons e es ih =>
    exact ⟨h w e (List.mem_cons_self e es), ih fun v e he => h v e (List.mem_cons_of_mem _ he)⟩

theorem Allowed.forall {P : Event → Prop} {w : World}
    {es : List Event} (h : w.Allowed (fun _ e => P e) es) : ∀ e ∈ es, P e := by
  induction es generalizing w with
  | nil => simp
  | cons e es ih => exact List.forall_mem_cons.mpr ⟨h.1, ih h.2⟩

/-- `w'` ends a run from `w` of events that `ok` allows. -/
def Leads (ok : World → Event → Prop) (w w' : World) : Prop :=
  ∃ es, w.Allowed ok es ∧ w.run es = w'

namespace Leads

variable {ok : World → Event → Prop} {w v u : World}

theorem refl : w.Leads ok w := ⟨[], trivial, rfl⟩

theorem trans (h₁ : w.Leads ok v) (h₂ : v.Leads ok u) : w.Leads ok u := by
  obtain ⟨es, hes, rfl⟩ := h₁
  obtain ⟨fs, hfs, rfl⟩ := h₂
  exact ⟨es ++ fs, allowed_append.mpr ⟨hes, hfs⟩, run_append w es fs⟩

theorem step {e : Event} (h : w.Leads ok v) (he : ok v e) : w.Leads ok (v.step e) :=
  h.trans ⟨[e], ⟨he, trivial⟩, rfl⟩

theorem ite {c : Prop} [Decidable c] {a b : UtxoManager} {built : List (List OutPoint)}
    (ha : w.Leads ok ⟨a, built⟩) (hb : w.Leads ok ⟨b, built⟩) :
    w.Leads ok ⟨if c then a else b, built⟩ := by
  split
  · exact ha
  · exact hb

end Leads

end World

/-- The world after a call that started with the built transactions `built` and ended with `o`:
a submitted result is built; `none` for a fee loop that never returned. -/
def Outcome.world (built : List (List OutPoint)) : Outcome → Option World
  | .submitted tt m => some ⟨m, built ++ [tt.spentUtxos.map (·.outpoint)]⟩
  | .trap _ m => some ⟨m, built⟩
  | .panic m => some ⟨m, built⟩
  | .outOfFuel => none

/-- Every world the outcome ends in is reached from `w` by events that `ok` allows. -/
def Outcome.ReachedBy (ok : World → Event → Prop) (w : World) (o : Outcome) : Prop :=
  ∀ w', o.world w.built = some w' → w.Leads ok w'

@[simp] theorem LoopEnd.mapError_id {ε α : Type} (r : LoopEnd ε α) : r.mapError id = r := by
  rcases r with ⟨_ | _, _⟩ | _ | _ <;> rfl

namespace Outcome

variable {ok : World → Event → Prop} {w : World}

theorem reachedBy_trap {msg : String} {m : UtxoManager} (h : w.Leads ok ⟨m, w.built⟩) :
    (trap msg m).ReachedBy ok w := by
  rintro w' ⟨⟩
  exact h

theorem reachedBy_panic {m : UtxoManager} (h : w.Leads ok ⟨m, w.built⟩) :
    (panic m).ReachedBy ok w := by
  rintro w' ⟨⟩
  exact h

theorem reachedBy_ite {c : Prop} [Decidable c] {a b : Outcome} (ha : a.ReachedBy ok w)
    (hb : b.ReachedBy ok w) : (if c then a else b).ReachedBy ok w := by
  split
  · exact ha
  · exact hb

/-- A builder call from pools the call reached: a result it returns is built by one more event,
a failure goes on from the pools it left, and a panic rolls back to a reached world. -/
theorem reachedBy_afterTransfer {ε : Type} {f : ε → Shortfall} {r : LoopEnd ε TransactionType}
    {req : Request} {fuel : ℕ} {m committed : UtxoManager} {onError : ε → UtxoManager → Outcome}
    (hok : ∀ v, ok v (.transfer fuel req)) (hr : req.transfer fuel m = r.mapError f)
    (hm : w.Leads ok ⟨m, w.built⟩) (hc : w.Leads ok ⟨committed, w.built⟩)
    (hk : ∀ e m₂, w.Leads ok ⟨m₂, w.built⟩ → (onError e m₂).ReachedBy ok w) :
    (afterTransfer r committed onError).ReachedBy ok w := by
  have hstep := hm.step (hok _)
  rcases r with ⟨_ | _, m'⟩ | _ | _
  · rw [World.step_transfer_error hr] at hstep
    exact hk _ _ hstep
  · rw [World.step_transfer_ok hr] at hstep
    rintro w' ⟨⟩
    exact hstep
  · exact reachedBy_panic hc
  · rintro w' ⟨⟩

theorem reachedBy_retryTransfer {req : Request} {fuel : ℕ} {committed m : UtxoManager}
    (hok : ∀ v, ok v (.transfer fuel req)) (hc : w.Leads ok ⟨committed, w.built⟩)
    (hm : w.Leads ok ⟨m, w.built⟩) : (retryTransfer fuel req committed m).ReachedBy ok w :=
  reachedBy_afterTransfer hok (LoopEnd.mapError_id _).symm hm hc fun _ _ _ => reachedBy_trap hc

end Outcome

namespace EntryPoint

variable {sync : String → ℕ → UtxoManager → UtxoManager} {probe fuel : ℕ}

/-- An event of a call: a synchronization of an address of a principal it names, or its builder
call. -/
def CallEvent (e : EntryPoint) (probe fuel : ℕ) (ev : Event) : Prop :=
  (∃ p ∈ e.parties, ev.SyncOf p.addr) ∨ ev = .transfer fuel (e.request probe)

open Outcome World in
/-- Every world a call ends in is reached from the world it started in by its synchronizations and
builder calls, when each synchronization of an address the call names is a run of events that
`ok` allows and so is its builder call. -/
theorem reachedBy_run (e : EntryPoint) (ok : World → Event → Prop) {w : World}
    (hsync : ∀ p ∈ e.parties, ∀ target m,
      (World.mk m w.built).Leads ok ⟨sync p.addr target m, w.built⟩)
    (htransfer : ∀ v, ok v (.transfer fuel (e.request probe))) :
    (e.run sync probe fuel w.manager).ReachedBy ok w := by
  have hs : ∀ p ∈ e.parties, ∀ target {m}, w.Leads ok ⟨m, w.built⟩ →
      w.Leads ok ⟨sync p.addr target m, w.built⟩ :=
    fun p hp target _ h => h.trans (hsync p hp target _)
  cases e with
  | bitcoin caller toAddress amount feePerVbytes =>
    have hc := hs caller (by simp [parties])
    exact reachedBy_ite (reachedBy_trap (Leads.ite (hc _ .refl) .refl))
      (reachedBy_afterTransfer htransfer rfl (Leads.ite (hc _ .refl) .refl)
        (Leads.ite (hc _ .refl) .refl) fun _ _ h₂ =>
          reachedBy_ite (reachedBy_trap (Leads.ite (hc _ .refl) .refl))
            (reachedBy_retryTransfer htransfer (hc _ h₂) (hc _ h₂)))
  | fromMultipleAddresses principal0 caller toAddress amount feePerVbytes =>
    have h0 := hs principal0 (by simp [parties])
    have h1 := hs caller (by simp [parties])
    refine reachedBy_ite (reachedBy_trap ?_) (reachedBy_afterTransfer htransfer rfl ?_ ?_
      fun _ _ h₃ => reachedBy_ite (reachedBy_trap (Leads.ite ?_ ?_))
        (reachedBy_retryTransfer htransfer (Leads.ite ?_ ?_) ?_))
    all_goals first
      | exact Leads.ite (h1 _ (Leads.ite (h0 _ .refl) .refl)) (Leads.ite (h0 _ .refl) .refl)
      | exact Leads.ite (h1 _ (Leads.ite (h0 _ h₃) h₃)) (Leads.ite (h0 _ h₃) h₃)
  | runestone caller runeid amount toAddr receiver feePerVbytes =>
    have hc := hs caller (by simp [parties])
    exact reachedBy_ite (reachedBy_trap (Leads.ite (hc _ .refl) .refl))
      (reachedBy_afterTransfer htransfer rfl (Leads.ite (hc _ .refl) .refl)
        (Leads.ite (hc _ .refl) .refl) fun _ _ h₂ =>
          reachedBy_ite (reachedBy_ite (reachedBy_trap (hc _ h₂))
            (reachedBy_retryTransfer htransfer (hc _ h₂) (hc _ h₂)))
            (reachedBy_retryTransfer htransfer (Leads.ite (hc _ .refl) .refl) h₂))
  | feePaidByReceiver caller toParty runeid amount feePerVbytes =>
    have hc := hs caller (by simp [parties])
    have hr := hs toParty (by simp [parties])
    exact reachedBy_ite (reachedBy_trap (Leads.ite (hc _ .refl) .refl))
      (reachedBy_afterTransfer htransfer rfl (Leads.ite (hc _ .refl) .refl)
        (Leads.ite (hc _ .refl) .refl) fun _ _ h₂ =>
          reachedBy_ite (reachedBy_ite (reachedBy_trap (hr _ h₂))
            (reachedBy_retryTransfer htransfer (hr _ h₂) (hr _ h₂)))
            (reachedBy_retryTransfer htransfer (Leads.ite (hc _ .refl) .refl) h₂))
  | combined caller receiver runeid runeAmount btcAmount feePerVbytes =>
    have h₁ := hs receiver (by simp [parties]) u64Max (hs caller (by simp [parties]) u64Max .refl)
    exact reachedBy_afterTransfer htransfer rfl h₁ h₁ fun _ _ _ => reachedBy_panic h₁

end EntryPoint

/-- `sync` acts as the synchronizer does: whatever the pools, its effect is a run of
synchronization events of the address it is given, recording UTXOs the chain reports. -/
def Synchronizer (sync : String → ℕ → UtxoManager → UtxoManager) : Prop :=
  ∀ addr target m, ∃ es, (∀ ev ∈ es, ev.SyncOf addr) ∧
    ∀ built, (World.mk m built).run es = ⟨sync addr target m, built⟩

open World in
/-- Every call of an update method that ends, with a synchronizer, is a run of the event model
from the world it started in to the world it ends in: synchronizations of the addresses of the
principals the call names, and builder calls of the call's request. A result it submits is built
by the last builder call; a trap or a panic ends at the world committed last. -/
theorem call_runs_events {e : EntryPoint} {sync : String → ℕ → UtxoManager → UtxoManager}
    {probe fuel : ℕ} {w w' : World} (hsync : Synchronizer sync)
    (h : (e.run sync probe fuel w.manager).world w.built = some w') :
    ∃ es, (∀ ev ∈ es, e.CallEvent probe fuel ev) ∧ w.run es = w' := by
  obtain ⟨es, hes, hrun⟩ := e.reachedBy_run (fun _ ev => e.CallEvent probe fuel ev)
    (fun p hp target m => by
      obtain ⟨es, hsyncs, hrun⟩ := hsync p.addr target m
      exact ⟨es, allowed_of_forall fun _ ev hev => .inl ⟨p, hp, hsyncs ev hev⟩, hrun w.built⟩)
    (fun _ => .inr rfl) w' h
  exact ⟨es, Allowed.forall hes, hrun⟩

set_option maxRecDepth 4000 in
/-- `bob`'s two-sender withdrawal from `pairPools`, with a synchronizer that finds nothing new,
submits a transaction, and its world is reached by the events of the call. -/
theorem pairWithdrawal_runs_events :
    Synchronizer (fun _ _ m => m) ∧
      ∃ w', (pairWithdrawal.run (fun _ _ m => m) 1000 3 pairPools).world [] = some w' ∧
        ∃ es, (∀ ev ∈ es, pairWithdrawal.CallEvent 1000 3 ev) ∧ World.run ⟨pairPools, []⟩ es = w' := by
  have hsync : Synchronizer (fun _ _ m => m) := fun _ _ _ => ⟨[], by simp, fun _ => rfl⟩
  obtain ⟨w', hw'⟩ := Option.isSome_iff_exists.mp
    (by decide : ((pairWithdrawal.run (fun _ _ m => m) 1000 3 pairPools).world []).isSome = true)
  exact ⟨hsync, w', hw', (call_runs_events hsync hw' : ∃ es, _ ∧ World.run ⟨pairPools, []⟩ es = w')⟩

/-- A synchronizer is fresh for the built transactions `built` when, whatever the pools, its
effect is a run of synchronization events of the address it is given, each recording only
outpoints that no built transaction spends and no other pool holds. -/
def FreshSync (sync : String → ℕ → UtxoManager → UtxoManager)
    (built : List (List OutPoint)) : Prop :=
  ∀ addr target m, ∃ es, (∀ ev ∈ es, ev.SyncOf addr) ∧ (World.mk m built).Admissible es ∧
    (World.mk m built).run es = ⟨sync addr target m, built⟩

/-- A call of an update method: the method and its arguments, the synchronizer and the fee rate
of its time, and the bound on each fee loop. -/
structure Call where
  entry : EntryPoint
  sync : String → ℕ → UtxoManager → UtxoManager
  probe : ℕ
  fuel : ℕ

namespace World

/-- The world after a call run alone, `none` when its fee loop never returns. -/
def call (w : World) (c : Call) : Option World :=
  (c.entry.run c.sync c.probe c.fuel w.manager).world w.built

/-- Calls one after another, `none` once one of them never returns. -/
def calls : World → List Call → Option World
  | w, [] => some w
  | w, c :: cs => (w.call c).bind fun w' => w'.calls cs

/-- A call whose synchronizer is fresh keeps the invariant. -/
theorem Inv.call {w w' : World} {c : Call} (hw : w.Inv) (hfresh : FreshSync c.sync w.built)
    (h : w.call c = some w') : w'.Inv := by
  obtain ⟨es, hes, rfl⟩ := c.entry.reachedBy_run (fun v ev => v.Fresh ev)
    (fun p _ target m => by
      obtain ⟨es, -, hadm, hrun⟩ := hfresh p.addr target m
      exact ⟨es, admissible_iff_allowed.mp hadm, hrun⟩)
    (fun _ => trivial) w' h
  exact hw.run (admissible_iff_allowed.mpr hes)

end World

/-- The two pools of `pairPools`, synchronized one after the other into a fresh canister. -/
def pairWorld : World :=
  World.init.run [.syncBitcoin "alice" [⟨⟨1, 0⟩, 20000⟩], .syncBitcoin "bob" [⟨⟨2, 0⟩, 40000⟩]]

/-- `bob`'s two-sender withdrawal, as a call with a synchronizer that finds nothing new. -/
def pairCall : Call := ⟨pairWithdrawal, fun _ _ m => m, 1000, 3⟩

/-- The synchronizations that build `pairWorld` are fresh, so it keeps the invariant. -/
theorem pairWorld_inv : pairWorld.Inv := by
  refine World.init_inv.run ⟨fun u hu => by simp [List.mem_singleton.mp hu, World.init],
    fun u hu => ?_, trivial⟩
  obtain rfl := List.mem_singleton.mp hu
  refine ⟨by simp [World.step, World.init], fun p hp => ?_⟩
  rcases UtxoManager.mem_outpoints_recordBtcUtxos hp with h | ⟨-, h⟩
  · simp [World.init] at h
  · simp at h

/-- `alice` withdraws 10 000 sats, with a synchronizer for which the chain still reports her UTXO
`1:0` unspent. -/
def staleAliceCall : Call :=
  ⟨.bitcoin aliceParty (Address.p2pkh (List.replicate 20 3)) 10000 (some 1000),
    fun addr _ m => if addr = "alice" then m.recordBtcUtxos "alice" [aliceUtxo] else m, 1000, 3⟩

set_option maxRecDepth 8000 in
/- Without fresh synchronizations the conclusion fails for calls run one after the other: each
call finds `alice` short, synchronizes, records `1:0` again, and submits a transaction spending
it. -/
example : (World.init.calls [staleAliceCall, staleAliceCall]).map (·.built) =
    some [[⟨1, 0⟩], [⟨1, 0⟩]] := by
  decide

/-! ### What the calls keep and what they drop -/

/-- The world holds `o`: a pool holds it, or a built transaction spends it. -/
def World.Holds (w : World) (o : OutPoint) : Prop :=
  (∃ p, o ∈ w.manager.outpoints p) ∨ o ∈ w.built.flatten

/-- A request of a builder that moves BTC alone: `PlainTxn` or `MultiSenderTxn`. -/
def Request.IsBitcoin : Request → Prop
  | .bitcoin .. => True
  | .legoBitcoin _ => True
  | .runestone _ => False
  | .combined _ => False

/-- A method that moves BTC alone: `withdraw_bitcoin` or
`withdraw_bitcoin_from_multiple_addresses`. -/
def EntryPoint.MovesBitcoin : EntryPoint → Prop
  | .bitcoin .. => True
  | .fromMultipleAddresses .. => True
  | _ => False

/-- An event of the kinds that lose nothing: a synchronization, or a call of a builder that moves
BTC alone. -/
def Event.Lossless : Event → Prop
  | .transfer _ req => req.IsBitcoin
  | _ => True

theorem EntryPoint.request_isBitcoin {e : EntryPoint} (he : e.MovesBitcoin) (probe : ℕ) :
    (e.request probe).IsBitcoin := by
  cases e <;> first | exact he.elim | trivial

theorem Event.SyncOf.lossless {ev : Event} {addr : String} (h : ev.SyncOf addr) : ev.Lossless := by
  cases ev <;> first | exact h.elim | trivial

/-- A builder that moves BTC alone and fails gives back the pools it was given. -/
theorem Request.transfer_error_of_isBitcoin {req : Request} {fuel : ℕ} {m m' : UtxoManager}
    {s : Shortfall} (hreq : req.IsBitcoin) (h : req.transfer fuel m = .returned (.error s) m') :
    m' = m := by
  cases req <;> obtain ⟨_, h, -⟩ := LoopEnd.mapError_eq_returned_error.mp h
  case bitcoin =>
    obtain ⟨_, hb⟩ := PlainTxn.transfer_error h
    exact (PlainTxn.buildTransactionWithFee_error hb).1
  case legoBitcoin =>
    obtain ⟨_, hb⟩ := MultiSenderTxn.transfer_error h
    obtain ⟨_, _, hs⟩ := MultiSenderTxn.buildTransactionWithFee_error hb
    exact (MultiSenderTxn.selectUtxos_error hs).1
  all_goals exact hreq.elim

theorem mem_of_mem_plainAt {addr a : String} {l : List Utxo} {u : Utxo}
    (h : u ∈ plainAt addr l a) : u ∈ l := by
  unfold plainAt at h
  split_ifs at h
  · exact h
  · cases h

theorem mem_of_mem_runicAt {addr a : String} {runeid r : RuneId} {l : List RunicUtxo} {u : Utxo}
    (h : u ∈ (runicAt addr runeid l a r).map (·.utxo)) : u ∈ l.map (·.utxo) := by
  unfold runicAt at h
  split_ifs at h
  · exact h
  · cases h

/-- Every UTXO a result lists as drawn is one of its inputs. -/
theorem TransactionType.mem_spentUtxos_of_drawnFrom {tt : TransactionType} {a : String}
    {u : Utxo} (h : tt.DrawnFrom a u) : u ∈ tt.spentUtxos := by
  rcases h with h | ⟨r, h⟩
  · cases tt with
    | bitcoin => exact mem_of_mem_plainAt h
    | legoBitcoin =>
      exact List.mem_append.mpr ((List.mem_append.mp h).imp mem_of_mem_plainAt mem_of_mem_plainAt)
    | runestone => exact List.mem_append_right _ (mem_of_mem_plainAt h)
    | combined =>
      rcases List.mem_append.mp h with h | h
      · exact List.mem_append_left _ (List.mem_append_right _ (mem_of_mem_plainAt h))
      · exact List.mem_append_right _ (mem_of_mem_plainAt h)
  · cases tt with
    | runestone => exact List.mem_append_left _ (mem_of_mem_runicAt h)
    | combined => exact List.mem_append_left _ (List.mem_append_left _ (mem_of_mem_runicAt h))
    | bitcoin => simp [TransactionType.runicDrawn] at h
    | legoBitcoin => simp [TransactionType.runicDrawn] at h

namespace World.Holds

variable {w : World} {o : OutPoint}

/-- Building keeps every outpoint: what leaves a pool is an input of the transaction built. -/
theorem build {m' : UtxoManager} {tt : TransactionType} (h : w.Holds o)
    (ht : Takes w.manager m' tt.plainDrawn tt.runicDrawn) :
    World.Holds ⟨m', w.built ++ [tt.spentUtxos.map (·.outpoint)]⟩ o := by
  rcases h with ⟨p, hp⟩ | hb
  · rcases ht.mem_outpoints_or_handed_out hp with hm | ⟨a, u, hu, rfl⟩
    · exact .inl ⟨p, hm⟩
    · exact .inr (List.mem_flatten.mpr ⟨_, List.mem_append_right _ (List.mem_singleton_self _),
        List.mem_map_of_mem _ (tt.mem_spentUtxos_of_drawnFrom hu)⟩)
  · exact .inr (by rw [List.flatten_append]; exact List.mem_append_left _ hb)

/-- A synchronization keeps every outpoint, and so does a call of a builder that moves BTC
alone: a result's inputs are built, and a failure gives the pools back. -/
theorem step {e : Event} (he : e.Lossless) (h : w.Holds o) : (w.step e).Holds o := by
  cases e with
  | syncBitcoin addr utxos =>
    exact h.imp (fun ⟨p, hp⟩ => ⟨p, UtxoManager.outpoints_recordBtcUtxos_of_mem hp⟩) id
  | syncRunic addr runeid utxos =>
    exact h.imp (fun ⟨p, hp⟩ => ⟨p, UtxoManager.outpoints_recordRunicUtxos_of_mem hp⟩) id
  | transfer fuel req =>
    dsimp only [World.step]
    split
    · rename_i tt m' hr
      exact h.build (Request.transfer_ok_takes hr)
    · rename_i s m' hr
      rw [Request.transfer_error_of_isBitcoin he hr]
      exact h
    · exact h
    · exact h

theorem run {es : List Event} (hes : ∀ e ∈ es, e.Lossless) (h : w.Holds o) :
    (w.run es).Holds o := by
  induction es generalizing w with
  | nil => exact h
  | cons e es ih =>
    exact ih (fun e' he' => hes e' (List.mem_cons_of_mem _ he'))
      (h.step (hes e (List.mem_cons_self _ _)))

open World in
/-- A call of a method that moves BTC alone keeps every outpoint. -/
theorem call {w' : World} {c : Call} (hc : c.entry.MovesBitcoin) (hsync : Synchronizer c.sync)
    (h : w.call c = some w') (ho : w.Holds o) : w'.Holds o := by
  obtain ⟨es, hes, rfl⟩ := c.entry.reachedBy_run (fun _ ev => ev.Lossless)
    (fun p _ target m => by
      obtain ⟨es, hsyncs, hrun⟩ := hsync p.addr target m
      exact ⟨es, allowed_of_forall fun _ ev hev => (hsyncs ev hev).lossless, hrun w.built⟩)
    (fun _ => EntryPoint.request_isBitcoin hc _) w' h
  exact ho.run (Allowed.forall hes)

end World.Holds

/-- Over every sequence of calls of `withdraw_bitcoin` and
`withdraw_bitcoin_from_multiple_addresses` that end, each with a synchronizer, no outpoint is
lost: one that a pool held or a built transaction spent before the calls is, after them, still
held by a pool or spent by a built transaction. No freshness is needed, since a failed build of
these methods gives its pools back. -/
theorem bitcoin_calls_lose_nothing {w w' : World} {cs : List Call}
    (hcs : ∀ c ∈ cs, c.entry.MovesBitcoin ∧ Synchronizer c.sync) (h : w.calls cs = some w')
    {o : OutPoint} (ho : w.Holds o) : w'.Holds o := by
  induction cs generalizing w with
  | nil =>
    cases h
    exact ho
  | cons c cs ih =>
    obtain ⟨w₁, h₁, h'⟩ := Option.bind_eq_some.mp h
    have hc := hcs c (List.mem_cons_self _ _)
    exact ih (fun c' hc' => hcs c' (List.mem_cons_of_mem _ hc')) h' (ho.call hc.1 hc.2 h₁)

set_option maxRecDepth 4000 in
/-- `bob`'s two-sender withdrawal keeps `alice`'s UTXO `1:0`, now as an input of the transaction
it submits. -/
theorem pairCall_loses_nothing :
    (∀ c ∈ [pairCall], c.entry.MovesBitcoin ∧ Synchronizer c.sync) ∧
      ∃ w', pairWorld.calls [pairCall] = some w' ∧ pairWorld.Holds ⟨1, 0⟩ ∧ w'.Holds ⟨1, 0⟩ := by
  have hcs : ∀ c ∈ [pairCall], c.entry.MovesBitcoin ∧ Synchronizer c.sync := by
    simp only [List.mem_singleton, forall_eq]
    exact ⟨trivial, fun _ _ _ => ⟨[], by simp, fun _ => rfl⟩⟩
  have ho : pairWorld.Holds ⟨1, 0⟩ := .inl ⟨.plain "alice", by decide⟩
  obtain ⟨w', hw'⟩ := Option.isSome_iff_exists.mp
    (by decide : (pairWorld.calls [pairCall]).isSome = true)
  exact ⟨hcs, w', hw', ho, bitcoin_calls_lose_nothing hcs hw' ho⟩

theorem retryTransfer_eq_submitted {fuel : ℕ} {req : Request} {committed m m' : UtxoManager}
    {tt : TransactionType} :
    retryTransfer fuel req committed m = .submitted tt m' ↔
      req.transfer fuel m = .returned (.ok tt) m' := by
  rcases hr : req.transfer fuel m with ⟨_ | _, _⟩ | _ | _ <;>
    simp [retryTransfer, afterTransfer, hr]

/-- From a world that keeps the invariant, a `withdraw_runestone` whose balance check passes with
no synchronization, whose first build fails asking a fee the caller's BTC covers, and whose retry
submits a transaction ends in a world that no longer holds a runic UTXO the failed build took: no
pool holds its outpoint and no built transaction spends it. The failed build keeps what it drew,
the method then does not synchronize, and the retry builds from the pools the failure left. Only
a later synchronization of the caller's runes records the UTXO again. -/
theorem withdrawRunestone_drops_first_draw {sync : String → ℕ → UtxoManager → UtxoManager}
    {probe fuel : ℕ} {caller : Party} {runeid : RuneId} {amount : ℕ} {toAddr : String}
    {receiver : Address} {feePerVbytes : Option ℕ} {w : World} {m₂ m' : UtxoManager}
    {required : ℕ × ℕ} {tt : TransactionType} {u : RunicUtxo} (hw : w.Inv)
    (hbal : amount ≤ w.manager.getRunestoneBalance caller.addr runeid)
    (hfail : RunestoneTxn.transfer fuel
      (runestoneArgs caller runeid amount toAddr receiver (feePerVbytes.getD probe)) w.manager =
        .returned (.error required) m₂)
    (hfee : required.2 ≤ m₂.getBitcoinBalance caller.addr)
    (h : withdrawRunestone sync probe fuel caller runeid amount toAddr receiver feePerVbytes
      w.manager = .submitted tt m')
    (hu : u ∈ w.manager.runic caller.addr runeid) (hgone : u ∉ m₂.runic caller.addr runeid) :
    ¬World.Holds ⟨m', w.built ++ [tt.spentUtxos.map (·.outpoint)]⟩ u.utxo.outpoint := by
  have hretry : retryTransfer fuel (.runestone (runestoneArgs caller runeid amount toAddr receiver
      (feePerVbytes.getD probe))) w.manager m₂ = .submitted tt m' := by
    simpa [withdrawRunestone, Nat.not_lt.mpr hbal, afterTransfer, hfail, Nat.not_lt.mpr hfee]
      using h
  obtain ⟨_, _, ht₁⟩ := Request.transfer_error_takes
    (show (Request.runestone _).transfer fuel w.manager = _ from
      LoopEnd.mapError_eq_returned_error.mpr ⟨_, hfail, rfl⟩)
  have ht₂ := Request.transfer_ok_takes (retryTransfer_eq_submitted.mp hretry)
  have ho : u.utxo.outpoint ∈ w.manager.outpoints (.runic caller.addr runeid) :=
    List.mem_map_of_mem _ hu
  -- The only pool that held the outpoint is the caller's pool of the rune, and the failure
  -- left that pool without it.
  have hnot : ∀ q, u.utxo.outpoint ∉ m₂.outpoints q := by
    intro q hq
    obtain rfl := hw.pool_unique q _ _ (ht₁.mem_outpoints hq) ho
    obtain ⟨v, hv, hvo⟩ := List.mem_map.mp hq
    have hv' : v ∈ w.manager.runic caller.addr runeid :=
      ht₁.2 _ _ ▸ List.mem_append_right _ hv
    obtain rfl := List.inj_on_of_nodup_map (w.manager.nodup_outpoints (.runic caller.addr runeid))
      hv' hu hvo
    exact hgone hv
  rintro (⟨p, hp⟩ | hb)
  · exact hnot p (ht₂.mem_outpoints hp)
  · rw [List.flatten_append, List.mem_append] at hb
    rcases hb with hb | hb
    · exact hw.pool_not_built _ _ ho hb
    · obtain ⟨v, hv, hvo⟩ := List.mem_map.mp (by simpa using hb)
      obtain ⟨_, hd⟩ := exists_of_forall₂ tt.forall₂_drawnFrom hv
      obtain ⟨q, hq, -⟩ := ht₂.handed_out hd
      exact hnot q (hvo ▸ hq)

/-- The sender of the rune withdrawal below. -/
def runeSender : Party := ⟨"sender", Address.p2pkh (List.replicate 20 1), ⟨[1], none⟩⟩

/-- A UTXO of 20 000 sats carrying 5 units of `sampleRune`. -/
def runicLarge : RunicUtxo := ⟨⟨⟨10, 0⟩, 20000⟩, 5⟩

/-- `runicSample` and `runicLarge`, and 3 000 plain sats, synchronized for `sender` into a fresh
canister. -/
def runeWorld : World :=
  World.init.run [.syncRunic "sender" sampleRune [runicSample, runicLarge],
    .syncBitcoin "sender" [⟨⟨3, 1⟩, 3000⟩]]

set_option maxRecDepth 8000 in
/-- Withdrawing 4 units: the first build draws `runicSample`, owes `20 000 - 546` sats of postage,
finds 3 000 and fails reporting a fee of 0; the retry draws `runicLarge`, whose sats cover the
postage, and submits. `runicSample` is then in no pool and in no transaction. -/
theorem runeWorld_drops_runicSample :
    runeWorld.Inv ∧ 4 ≤ runeWorld.manager.getRunestoneBalance runeSender.addr sampleRune ∧
      ∃ required m₂ tt m',
        RunestoneTxn.transfer 3 (runestoneArgs runeSender sampleRune 4 "receiver"
          (Address.p2pkh (List.replicate 20 2)) ((some 1000).getD 1000)) runeWorld.manager =
            .returned (.error required) m₂ ∧
        required.2 ≤ m₂.getBitcoinBalance runeSender.addr ∧
        withdrawRunestone (fun _ _ m => m) 1000 3 runeSender sampleRune 4 "receiver"
          (Address.p2pkh (List.replicate 20 2)) (some 1000) runeWorld.manager = .submitted tt m' ∧
        runicSample ∈ runeWorld.manager.runic runeSender.addr sampleRune ∧
        runicSample ∉ m₂.runic runeSender.addr sampleRune ∧
        ¬World.Holds ⟨m', runeWorld.built ++ [tt.spentUtxos.map (·.outpoint)]⟩
          runicSample.utxo.outpoint := by
  have hadm : World.init.Admissible [.syncRunic "sender" sampleRune [runicSample, runicLarge],
      .syncBitcoin "sender" [⟨⟨3, 1⟩, 3000⟩]] := by
    refine ⟨fun u _ => ⟨by simp [World.init], fun p hp => by simp [World.init] at hp⟩,
      fun u hu => ?_, trivial⟩
    obtain rfl := List.mem_singleton.mp hu
    refine ⟨by simp [World.step, World.init], fun p hp => ?_⟩
    rcases UtxoManager.mem_outpoints_recordRunicUtxos hp with h | ⟨-, h⟩
    · simp [World.init] at h
    · simp [runicSample, runicLarge] at h
  have hw : runeWorld.Inv := World.init_inv.run hadm
  obtain ⟨m₂, hfail⟩ := LoopEnd.error?_eq_some.mp (by decide : (RunestoneTxn.transfer 3
    (runestoneArgs runeSender sampleRune 4 "receiver" (Address.p2pkh (List.replicate 20 2))
      ((some 1000).getD 1000)) runeWorld.manager).error? = some (0, 0))
  have hm₂ : (RunestoneTxn.transfer 3 (runestoneArgs runeSender sampleRune 4 "receiver"
      (Address.p2pkh (List.replicate 20 2)) ((some 1000).getD 1000)) runeWorld.manager).manager?.map
        (fun m => decide (runicSample ∈ m.runic runeSender.addr sampleRune)) = some false := by
    decide
  rw [hfail, LoopEnd.manager?_returned, Option.map_some', Option.some.injEq,
    decide_eq_false_iff_not] at hm₂
  obtain ⟨tt, htt⟩ := Option.isSome_iff_exists.mp
    (by decide : (withdrawRunestone (fun _ _ m => m) 1000 3 runeSender sampleRune 4 "receiver"
      (Address.p2pkh (List.replicate 20 2)) (some 1000) runeWorld.manager).submitted?.isSome =
        true)
  obtain ⟨m', h⟩ := Outcome.submitted?_eq_some.mp htt
  have hbal : 4 ≤ runeWorld.manager.getRunestoneBalance runeSender.addr sampleRune := by decide
  have hu : runicSample ∈ runeWorld.manager.runic runeSender.addr sampleRune := by decide
  exact ⟨hw, hbal, (0, 0), m₂, tt, m', hfail, Nat.zero_le _, h, hu, hm₂,
    withdrawRunestone_drops_first_draw hw hbal hfail (Nat.zero_le _) h hu hm₂⟩

end OrdWallet
