import OrdWallet.Transaction

/-!
# Reading a Runestone back

`ordinals::Runestone::decipher`, a dependency of the wallet, reads the Runestone from the first
output whose script opens with `OP_RETURN OP_13`: its data pushes make the payload, read as LEB128
integers, then as tag and value pairs up to the body tag `0`, then as edicts of four integers;
any flaw makes a cenotaph. Etchings, mints and the pointer, which the builders never write, are
left out: every even tag reads as unrecognized, and so does the pointer's tag `22`. Deciphering
undoes `Runestone.encipher`, the edicts sorted by rune id.
-/

namespace OrdWallet

/-- `RuneId::next`: the id `block` blocks and `tx` transactions after `prev`, the transaction
index counted from `prev`'s only within its block. -/
def RuneId.next (prev : RuneId) (block tx : ℕ) : RuneId :=
  ⟨prev.block + block, if block = 0 then prev.tx + tx else tx⟩

/-- `RuneId::new` refuses block `0` with a nonzero transaction index. -/
def RuneId.valid (id : RuneId) : Bool := !(id.block = 0 && 0 < id.tx)

/-- `RuneId::next` undoes `RuneId::delta` towards an id no smaller. -/
theorem RuneId.next_delta {prev next : RuneId} (h : prev.le next = true) :
    prev.next (prev.delta next).1 (prev.delta next).2 = next := by
  obtain ⟨b, t⟩ := prev
  obtain ⟨b', t'⟩ := next
  simp only [RuneId.le, Bool.or_eq_true, decide_eq_true_eq, Bool.and_eq_true] at h
  simp only [RuneId.delta, RuneId.next, RuneId.mk.injEq]
  split_ifs <;> omega

/-- Rune ids are totally ordered. -/
theorem RuneId.le_total (a b : RuneId) : a.le b = true ∨ b.le a = true := by
  simp only [RuneId.le, Bool.or_eq_true, decide_eq_true_eq, Bool.and_eq_true]
  omega

theorem RuneId.le_trans {a b c : RuneId} (hab : a.le b = true) (hbc : b.le c = true) :
    a.le c = true := by
  simp only [RuneId.le, Bool.or_eq_true, decide_eq_true_eq, Bool.and_eq_true] at hab hbc ⊢
  omega

/-- The first possible id is below every id. -/
theorem RuneId.zero_le (a : RuneId) : RuneId.le ⟨0, 0⟩ a = true := by
  simp only [RuneId.le, Bool.or_eq_true, decide_eq_true_eq, Bool.and_eq_true]
  omega

namespace Runes

/-! ### Integers -/

/-- The loop of `Runestone::integers` over the payload: `acc` holds the bits read of the current
integer and `scale` the weight of its next seven bits; a byte below 128 ends the integer. `none`
when the payload ends inside an integer. -/
def integersFrom : List UInt8 → ℕ → ℕ → Option (List ℕ)
  | [], _, scale => if scale = 1 then some [] else none
  | b :: bs, acc, scale =>
    if b.toNat < 128 then (integersFrom bs 0 1).map ((acc + scale * b.toNat) :: ·)
    else integersFrom bs (acc + scale * (b.toNat - 128)) (scale * 128)

/-- `Runestone::integers`: the payload read as LEB128 integers. -/
def integers (payload : List UInt8) : Option (List ℕ) := integersFrom payload 0 1

/-- A byte holds a number below 256 as it is. -/
theorem toNat_toUInt8 {n : ℕ} (h : n < 256) : n.toUInt8.toNat = n := UInt8.toNat_ofNat_of_lt h

/-- Reading an encoded integer adds it to the one being read. -/
theorem integersFrom_varintBytes {fuel n : ℕ} (acc scale : ℕ) (rest : List UInt8)
    (hn : n ≤ fuel) :
    integersFrom (varintBytes fuel n ++ rest) acc scale =
      (integersFrom rest 0 1).map ((acc + scale * n) :: ·) := by
  induction fuel generalizing n acc scale with
  | zero =>
    obtain rfl : n = 0 := Nat.le_zero.mp hn
    rfl
  | succ fuel ih =>
    unfold varintBytes
    split
    · rename_i hlt
      rw [List.singleton_append, integersFrom, toNat_toUInt8 (by omega), if_pos hlt]
    · rename_i hge
      rw [List.cons_append, integersFrom, toNat_toUInt8 (by omega), if_neg (by omega),
        ih _ _ (by omega),
        Nat.add_sub_cancel, Nat.add_assoc, Nat.mul_assoc, ← Nat.mul_add, Nat.mod_add_div]

/-- Reading the encoding of `n` gives `n`, then what follows. -/
theorem integers_varintEncode (n : ℕ) (rest : List UInt8) :
    integers (varintEncode n ++ rest) = (integers rest).map (n :: ·) := by
  rw [integers, varintEncode, integersFrom_varintBytes 0 1 rest le_rfl, Nat.zero_add, Nat.one_mul]
  rfl

/-! ### Pushes -/

/-- A data push's length and the bytes after its length field: an opcode below 76 pushes that
many bytes, and `OP_PUSHDATA1`, `2` and `4` read the length from the next one, two or four
bytes, least significant first. `none` for any other opcode, or a length field cut short. -/
def pushHeader (op : UInt8) (rest : List UInt8) : Option (ℕ × List UInt8) :=
  if op.toNat < 76 then some (op.toNat, rest)
  else
    match op.toNat, rest with
    | 0x4c, b₀ :: r => some (b₀.toNat, r)
    | 0x4d, b₀ :: b₁ :: r => some (b₀.toNat + 256 * b₁.toNat, r)
    | 0x4e, b₀ :: b₁ :: b₂ :: b₃ :: r =>
      some (b₀.toNat + 256 * b₁.toNat + 65536 * b₂.toNat + 16777216 * b₃.toNat, r)
    | _, _ => none

/-- The bytes the data pushes of a script carry, in order; `none` when the script holds another
opcode or ends inside a push. Each push takes a byte at least, so `fuel` at the script's length
is enough. -/
def pushedBytes : ℕ → List UInt8 → Option (List UInt8)
  | _, [] => some []
  | 0, _ :: _ => none
  | fuel + 1, op :: rest =>
    match pushHeader op rest with
    | none => none
    | some (n, data) =>
      if n ≤ data.length then (pushedBytes fuel (data.drop n)).map (data.take n ++ ·) else none

/-- Reading the push `push_slice` makes of a chunk gives the chunk, then what follows. -/
theorem pushedBytes_pushSlice (fuel : ℕ) {chunk : List UInt8} (rest : List UInt8)
    (h : chunk.length < 65536) :
    pushedBytes (fuel + 1) (pushSlice chunk ++ rest) = (pushedBytes fuel rest).map (chunk ++ ·) := by
  have hdata : (chunk ++ rest).take chunk.length = chunk ∧ (chunk ++ rest).drop chunk.length = rest :=
    ⟨List.take_left' rfl, List.drop_left' rfl⟩
  dsimp only [pushSlice]
  split_ifs with h₁ h₂
  · simp [pushedBytes, pushHeader, toNat_toUInt8 (by omega : chunk.length < 256), h₁, hdata]
  · simp [pushedBytes, pushHeader, UInt8.size, toNat_toUInt8 (by omega : chunk.length < 256), h₁]
  · have hlen : (chunk.length % 256).toUInt8.toNat + 256 * (chunk.length / 256).toUInt8.toNat =
        chunk.length := by
      rw [toNat_toUInt8 (Nat.mod_lt _ (by decide)), toNat_toUInt8 (by omega), Nat.mod_add_div]
    simp [pushedBytes, pushHeader, UInt8.size, h₁, hlen, hdata]

/-- `toChunks.go` adds chunks of at most `n` elements that together are the elements in hand and
those left. -/
theorem toChunks_go {α : Type} {n : ℕ} (hn : 0 < n) (xs : List α) (acc₁ : Array α)
    (acc₂ : Array (List α)) (h : acc₁.size ≤ n) :
    ∃ cs, List.toChunks.go n xs acc₁ acc₂ = acc₂.toList ++ cs ∧ cs.flatten = acc₁.toList ++ xs ∧
      ∀ c ∈ cs, c.length ≤ n := by
  induction xs generalizing acc₁ acc₂ with
  | nil =>
    refine ⟨[acc₁.toList], by simp [List.toChunks.go, Array.push_toList], by simp, ?_⟩
    simpa using h
  | cons x xs ih =>
    unfold List.toChunks.go
    split
    · rename_i hfull
      obtain ⟨cs, hgo, hflat, hlen⟩ := ih #[x] (acc₂.push acc₁.toList) (by simpa using hn)
      refine ⟨acc₁.toList :: cs, by simp [hgo, Array.push_toList], by simp [hflat], fun c hc => ?_⟩
      rcases List.mem_cons.mp hc with rfl | hc
      · simpa using h
      · exact hlen c hc
    · rename_i hfull
      obtain ⟨cs, hgo, hflat, hlen⟩ := ih (acc₁.push x) acc₂ (by simp at hfull ⊢; omega)
      exact ⟨cs, hgo, by simp [hflat, Array.push_toList], hlen⟩

/-- `toChunks n` cuts a list into chunks of at most `n` elements. -/
theorem toChunks_spec {α : Type} {n : ℕ} (hn : 0 < n) (l : List α) :
    (l.toChunks n).flatten = l ∧ ∀ c ∈ l.toChunks n, c.length ≤ n := by
  match l, n, hn with
  | [], _, _ => simp [List.toChunks]
  | x :: xs, n + 1, _ =>
    obtain ⟨cs, hgo, hflat, hlen⟩ := toChunks_go (Nat.succ_pos n) xs #[x] #[] (by simp)
    simp only [List.toChunks, hgo]
    exact ⟨by simpa using hflat, by simpa using hlen⟩

/-- A push takes a byte at least. -/
theorem pushSlice_length_pos (chunk : List UInt8) : 0 < (pushSlice chunk).length := by
  dsimp only [pushSlice]
  split_ifs <;> simp

/-- Reading a run of pushes gives the chunks they push, one after the other. -/
theorem pushedBytes_chunks (k : ℕ) {chunks : List (List UInt8)}
    (h : ∀ c ∈ chunks, c.length < 65536) :
    pushedBytes (k + chunks.length) (chunks.map pushSlice).flatten = some chunks.flatten := by
  induction chunks with
  | nil => cases k <;> rfl
  | cons c cs ih =>
    rw [List.map_cons, List.flatten_cons, List.length_cons, ← Nat.add_assoc,
      pushedBytes_pushSlice _ _ (h c (List.mem_cons_self c cs)),
      ih fun c' hc' => h c' (List.mem_cons_of_mem c hc')]
    rfl

/-- The data pushes of a Runestone script carry its payload. -/
theorem pushedBytes_encipher (rs : Runestone) :
    pushedBytes rs.encipher.length (rs.encipher.drop 2) = some rs.payload := by
  obtain ⟨hflat, hlen⟩ := toChunks_spec (by decide : 0 < 520) rs.payload
  have hcount : ∀ cs : List (List UInt8), cs.length ≤ ((cs.map pushSlice).flatten).length := by
    intro cs
    induction cs with
    | nil => simp
    | cons c cs ih =>
      simp only [List.map_cons, List.flatten_cons, List.length_append, List.length_cons]
      have := pushSlice_length_pos c
      omega
  have hle := hcount (rs.payload.toChunks 520)
  simp only [Runestone.encipher, List.drop_succ_cons, List.drop_zero, List.length_cons]
  rw [show ((rs.payload.toChunks 520).map pushSlice).flatten.length + 1 + 1 =
      (((rs.payload.toChunks 520).map pushSlice).flatten.length + 2 -
        (rs.payload.toChunks 520).length) + (rs.payload.toChunks 520).length by omega,
    pushedBytes_chunks _ fun c hc => by have := hlen c hc; omega, hflat]

/-! ### The message -/

/-- The edicts of the body, four integers each with the rune id relative to the previous one,
each checked by `Edict::from_integers`; `none` for a flaw: integers left over, an invalid id, or
an output beyond the transaction's `outputs`. -/
def bodyEdicts (outputs : ℕ) : RuneId → List ℕ → Option (List Edict)
  | _, [] => some []
  | prev, block :: tx :: amount :: output :: rest =>
    let next := prev.next block tx
    if next.valid && output ≤ outputs then
      (bodyEdicts outputs next rest).map (⟨next, amount, output⟩ :: ·)
    else none
  | _, _ => none

/-- `Message::from_integers`: tag and value pairs up to the body tag `0`, then the body's
edicts; `none` for a flaw. -/
def message (outputs : ℕ) : List ℕ → Option (List (ℕ × ℕ) × List Edict)
  | [] => some ([], [])
  | 0 :: body => (bodyEdicts outputs ⟨0, 0⟩ body).map (([], ·))
  | tag :: value :: rest =>
    (message outputs rest).map fun (fields, edicts) => ((tag, value) :: fields, edicts)
  | [_] => none

/-- What `Runestone::decipher` finds in a transaction that has a Runestone output. -/
inductive Artifact
  | runestone (edicts : List Edict)
  | cenotaph
  deriving DecidableEq, Repr

/-- A script marked as a Runestone: `OP_RETURN OP_13`. -/
def isRunestoneScript (script : List UInt8) : Bool := script.take 2 == [0x6a, 0x5d]

/-- `Runestone::decipher`: the first output marked as a Runestone, read as pushes, integers and
a message; any flaw, or a field of an even tag, makes a cenotaph. `none` when no output is
marked. -/
def decipher (txn : Transaction) : Option Artifact :=
  (txn.output.find? fun o => isRunestoneScript o.scriptPubkey).map fun o =>
    match ((pushedBytes o.scriptPubkey.length (o.scriptPubkey.drop 2)).bind integers).bind
        (message txn.output.length) with
    | some (fields, edicts) => if fields.any (·.1 % 2 == 0) then .cenotaph else .runestone edicts
    | none => .cenotaph

/-- Reading the edicts back from their payload, each id after the previous one. -/
theorem bodyEdicts_edictsPayload (outputs : ℕ) :
    ∀ (prev : RuneId) (es : List Edict), List.Chain (fun a b => a.le b = true) prev (es.map (·.id)) →
      (∀ e ∈ es, e.id.valid = true ∧ e.output ≤ outputs) →
      ∃ ints, integers (edictsPayload prev es) = some ints ∧ bodyEdicts outputs prev ints = some es
  | _, [], _, _ => ⟨[], rfl, rfl⟩
  | prev, e :: es, hc, hv => by
    obtain ⟨hle, hc'⟩ := List.chain_cons.mp hc
    obtain ⟨ints, hi, hb⟩ :=
      bodyEdicts_edictsPayload outputs e.id es hc' fun e' he' => hv e' (List.mem_cons_of_mem e he')
    obtain ⟨hvalid, hout⟩ := hv e (List.mem_cons_self e es)
    refine ⟨(prev.delta e.id).1 :: (prev.delta e.id).2 :: e.amount :: e.output :: ints, ?_, ?_⟩
    · simp only [edictsPayload, List.append_assoc, integers_varintEncode, hi]
      rfl
    · simp [bodyEdicts, RuneId.next_delta hle, hvalid, hout, hb]

/-- An output paying an address is not marked as a Runestone. -/
theorem isRunestoneScript_payTo (address : Address) (value : ℕ) :
    isRunestoneScript (payTo address value).scriptPubkey = false := by
  have h := address.not_opReturn
  simp only [isRunestoneScript, payTo, beq_eq_false_iff_ne]
  intro heq
  apply h
  rw [← List.take_append_drop 2 address.scriptPubkey, heq]
  rfl

/-- A transaction none of whose outputs is marked has no Runestone. -/
theorem decipher_eq_none {txn : Transaction}
    (h : ∀ o ∈ txn.output, isRunestoneScript o.scriptPubkey = false) : decipher txn = none := by
  rw [decipher, List.find?_eq_none.mpr fun o ho => by simp [h o ho], Option.map_none']

/-- Deciphering a transaction whose first marked output carries `rs.encipher` gives back the
edicts of `rs`, sorted by rune id, when their rune ids are valid and their outputs the
transaction's. -/
theorem decipher_encipher {txn : Transaction} {rs : Runestone} {pre post : List TxOut}
    {value : ℕ} (hout : txn.output = pre ++ ⟨value, rs.encipher⟩ :: post)
    (hpre : ∀ o ∈ pre, isRunestoneScript o.scriptPubkey = false)
    (hvalid : ∀ e ∈ rs.edicts, e.id.valid = true ∧ e.output ≤ txn.output.length) :
    decipher txn = some (.runestone (rs.edicts.insertionSort fun a b => a.id.le b.id)) := by
  have hfind : txn.output.find? (fun o => isRunestoneScript o.scriptPubkey) =
      some ⟨value, rs.encipher⟩ := by
    rw [hout, List.find?_append, List.find?_eq_none.mpr fun o ho => by simp [hpre o ho]]
    simp [isRunestoneScript, Runestone.encipher]
  rw [decipher, hfind, Option.map_some', pushedBytes_encipher, Option.some_bind]
  by_cases hempty : rs.edicts.isEmpty = true
  · simp only [Runestone.payload, hempty, if_true, List.isEmpty_iff.mp hempty]
    rfl
  · have hsorted := @List.sorted_insertionSort Edict (fun a b => a.id.le b.id = true) _
      ⟨fun a b => RuneId.le_total a.id b.id⟩ ⟨fun _ _ _ => RuneId.le_trans⟩ rs.edicts
    have hchain : List.Chain (fun a b => a.le b = true) ⟨0, 0⟩
        ((rs.edicts.insertionSort fun a b => a.id.le b.id).map (·.id)) :=
      (List.chain'_map _).mpr hsorted.chain' |>.cons' fun b _ => RuneId.zero_le b
    obtain ⟨ints, hi, hb⟩ := bodyEdicts_edictsPayload txn.output.length _ _ hchain
      fun e he => hvalid e ((List.perm_insertionSort _ _).mem_iff.mp he)
    simp only [Runestone.payload, hempty, if_false, Bool.false_eq_true, integers_varintEncode, hi]
    simp [message, hb]

/- The Runestone sending 3 units of rune `840000:1` to output 2 reads back from the first output. -/
example : decipher (unsignedTransaction [] [⟨0, (transferRunestone ⟨840000, 1⟩ 3).encipher⟩,
    payTo (Address.p2pkh (List.replicate 20 1)) 10000,
    payTo (Address.p2pkh (List.replicate 20 2)) 10000]) =
    some (.runestone [⟨⟨840000, 1⟩, 3, 2⟩]) := rfl

end Runes

end OrdWallet
