import Arkeo.Tokens
import Arkeo.Airdrop.MsgServer

/-! # Runs of the claim module

A run starts from the records of the genesis and takes messages, hooks and new
blocks, at times that do not decrease.

The world also follows what becomes of the amounts of the genesis: `place` says where
the amount of a record for an action is now, in some record or in a payment.  A
message that hands one record over to another takes the amounts of all three actions
along, and a payment takes all there is for its action.  No function of the module
reads it.
-/
namespace Arkeo.Airdrop
open Exec

/-- An amount of the genesis: the key of its record and the action it is for. -/
abbrev Token := Key × Action

/-- Where an amount of the genesis is. -/
inductive Place where
  | slot (key : Key) (action : Action)
  /-- In the payment with this number. -/
  | payment (n : ℕ)
  deriving DecidableEq, Repr

namespace Place

/-- The amounts of one record go to another. -/
def handOver (src dst : Key) : Place → Place
  | slot k a => if k = src then slot dst a else slot k a
  | payment n => payment n

/-- The amount of a record for an action is paid, in payment `n`. -/
def paid (k : Key) (a : Action) (n : ℕ) (p : Place) : Place :=
  if p = slot k a then payment n else p

/-- The payments from number `n` on take what they are made from. -/
def settle : ℕ → List Payment → Place → Place
  | _, [], p => p
  | n, pay :: pays, p => settle (n + 1) pays (p.paid pay.key pay.action n)

end Place

structure World where
  store : Store
  ctx : Context
  place : Token → Place

/-- What a transaction or a block can do to the module. -/
inductive Msg where
  | claimArkeo (creator : String)
  | claimEth (creator ethAddress signature : String)
  | claimThorchain (creator fromAddress toAddress : String)
  | transferClaim (creator toAddress : String)
  | vote (voter : String)
  | delegate (delegator : String)
  | nextBlock (time : ℤ)
  deriving DecidableEq, Repr

namespace Msg

/-- The record that a message takes from and the one it adds to. -/
def handsOver : Msg → Option (Key × Key)
  | claimEth creator ethAddress _ => some (keyOf .ethereum ethAddress, keyOf .arkeo creator)
  | claimThorchain _ src dst => some (keyOf .arkeo src, keyOf .arkeo dst)
  | transferClaim creator dst => some (keyOf .arkeo creator, keyOf .arkeo dst)
  | _ => none

/-- Where an amount is after a message that handed its record over. -/
def carry (m : Msg) (p : Place) : Place :=
  match m.handsOver with
  | some (src, dst) => p.handOver src dst
  | none => p

end Msg

section
variable (env : Env)

/-- `InitGenesis`: the records are written one after the other. -/
def initGenesis (bank : Ledger Holder String) (records : List ClaimRecord) : Option Store :=
  committed (forEach (setClaimRecord env) records) { bank := bank }

/-- The signer of a message is its creator, whose address has to be valid. -/
def signedBy (creator : String) (handler : Keeper Unit) : Keeper Unit := do
  failIf (env.accAddressFromBech32 creator).isNone (.err .invalidAddress)
  handler

/-- What a message or hook runs. -/
def handler (ctx : Context) : Msg → Keeper Unit
  | .claimArkeo creator => signedBy env creator (claimArkeo env ctx creator >>= fun _ => pure ())
  | .claimEth creator ethAddress signature =>
      signedBy env creator (claimEth env ctx creator ethAddress signature >>= fun _ => pure ())
  | .claimThorchain creator src dst =>
      signedBy env creator (claimThorchain env creator src dst >>= fun _ => pure ())
  | .transferClaim creator dst => signedBy env creator (transferClaim env ctx creator dst)
  | .vote voter => afterProposalVote env ctx voter
  | .delegate delegator => afterDelegationModified env ctx delegator
  | .nextBlock _ => endBlocker ctx

/-- The world after a transaction that has left the store `s`. -/
def World.after (w : World) (m : Msg) (s : Store) : World :=
  { w with
    store := s
    place := fun t =>
      Place.settle w.store.payments.length (s.payments.drop w.store.payments.length)
        (m.carry (w.place t)) }

/-- A transaction that fails changes nothing; a block whose end fails does not come
about, nor does one in the past. -/
def step (w : World) (m : Msg) : Option World :=
  match m, committed (handler env w.ctx m) w.store with
  | .nextBlock time, some s =>
      if w.ctx.blockTime ≤ time then
        some { w with store := s, ctx := { w.ctx with blockTime := time } }
      else none
  | .nextBlock _, none => none
  | m, some s => some (w.after m s)
  | _, none => some w

end

/-- The world at the genesis. -/
def genesis (s : Store) (ctx : Context) : World where
  store := s
  ctx := ctx
  place := fun t => .slot t.1 t.2

/-! ## Sums -/

namespace Store

/-- The amount of a record for an action, zero if there is no record. -/
def amountAt (s : Store) (k : Key) (a : Action) : ℤ :=
  (s.records.lookup k).elim 0 fun r => (r.amount a).value

/-- The amounts of all records, one by one. -/
def slots (s : Store) : List Token := s.records.keys.flatMap fun k => allActions.map fun a => (k, a)

/-- The sum of the amounts of all records. -/
def total (s : Store) : ℤ := (s.slots.map fun t => s.amountAt t.1 t.2).sum

/-- The sum of the coins paid out. -/
def paidOut (s : Store) : ℤ := (s.payments.map fun pay => pay.coin.value).sum

end Store

/-- The worth of a place in amounts of the genesis `s₀`. -/
def World.worth (s₀ : Store) (w : World) (p : Place) : ℤ :=
  Tokens.worth s₀.slots (fun t => s₀.amountAt t.1 t.2) w.place p

/-! ## A concrete airdrop

One record, of a holder whose address can be spelled in small letters or in
capitals. -/

namespace Sample

def holder : String := "arkeo1ytss5wmafr0ktc7s9436vjr8xgnlj6wuz0fugk"

/-- The address of the holder in capitals. -/
def HOLDER : String := "ARKEO1YTSS5WMAFR0KTC7S9436VJR8XGNLJ6WUZ0FUGK"

def friend : String := "arkeo1t8940tndz54yajtlc4v72qr3q330yenuknhdpm"

/-- The addresses above in small letters or in capitals; no Ethereum claims. -/
def env : Env where
  accAddressFromBech32 s :=
    if s = toLower s ∨ s = toUpper s then
      [(thorchainClaimServer, [111, 71, 1, 179, 198, 245, 134, 173, 35, 57, 73, 39, 92, 126, 83, 142,
          202, 74, 17, 20]),
       (holder, [34, 225, 10, 59, 125, 72, 223, 101, 227, 208, 45, 99, 166, 72, 103, 50, 39, 249,
          105, 220]),
       (friend, [89, 203, 87, 174, 109, 21, 42, 78, 201, 127, 197, 89, 229, 0, 113, 4, 98, 242,
          102, 124])].lookup (toLower s)
    else none
  blockedAddr _ := false
  claimHash _ _ _ := none
  recoverAddress _ _ := none

def coins (n : ℤ) : Coin := ⟨defaultClaimDenom, some n⟩

def records : List ClaimRecord :=
  [{ address := holder, amountClaim := coins 10, amountVote := coins 5, amountDelegate := coins 3 }]

def bank : Ledger Holder String := AList.singleton (.module, defaultClaimDenom) 1000

/-- An airdrop that decays from time 100 to time 200. -/
def ctx : Context where
  params := { airdropStartTime := 0, durationUntilDecay := 100, durationOfDecay := 100 }
  blockTime := 0

/-- The record goes to the friend, who claims and votes half-way through the decay. -/
def msgs : List Msg :=
  [.claimThorchain thorchainClaimServer holder friend, .nextBlock 150, .claimArkeo friend,
    .vote friend, .claimArkeo holder]

/-- Durations that add up to less than 64 bits can hold. -/
def longPast : Context where
  params :=
    { airdropStartTime := 0, durationUntilDecay := -9223372036854775807
      durationOfDecay := -4611686018427387904 }
  blockTime := 0

/-- What is left and what was paid out, and what there was, after some messages. -/
def sums (ctx : Context) (msgs : List Msg) : Option (ℤ × ℤ × ℤ) := do
  let s₀ ← initGenesis env bank records
  let w ← Runs.run (step env) (genesis s₀ ctx) msgs
  pure (w.store.total, w.store.paidOut, s₀.total)

theorem sums_eq {ctx : Context} {msgs : List Msg} {x y z : ℤ} (h : sums ctx msgs = some (x, y, z)) :
    ∃ s₀ w, initGenesis env bank records = some s₀ ∧
      Runs.run (step env) (genesis s₀ ctx) msgs = some w ∧ w.store.total = x ∧
      w.store.paidOut = y ∧ s₀.total = z := by
  unfold sums at h
  simp only [Option.bind_eq_bind, Option.bind_eq_some_iff, Option.pure_def, Option.some.injEq,
    Prod.mk.injEq] at h
  obtain ⟨s₀, hs, w, hw, hx, hy, hz⟩ := h
  exact ⟨s₀, w, hs, hw, hx, hy, hz⟩

end Sample

end Arkeo.Airdrop
