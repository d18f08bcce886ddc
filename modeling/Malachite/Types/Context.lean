import Malachite.Types.Round

namespace Malachite

/-! The consensus context and the message types of `core-types`.

The source is generic over `Ctx: Context`, a trait that fixes the height,
address, value and signature types.  `Context` bundles those types with the
instances the code relies on (`Eq`/`Ord` derives) and the two methods every
modelled function uses: `Height::ZERO` and `Value::id`.

The `Vote` and `Proposal` traits only expose accessors; their concrete
implementations in the test context are plain records, which is what the model
uses.  The optional vote extension is left out: no driver or vote-keeper path
reads it.
-/

structure Context where
  Height : Type
  Address : Type
  Value : Type
  ValueId : Type
  Signature : Type
  PublicKey : Type
  [heightOrder : LinearOrder Height]
  [addressEq : DecidableEq Address]
  [valueEq : DecidableEq Value]
  [valueIdEq : DecidableEq ValueId]
  [signatureEq : DecidableEq Signature]
  [publicKeyEq : DecidableEq PublicKey]
  /-- `Height::ZERO`. -/
  zero : Height
  /-- `Value::id`. -/
  id : Value → ValueId

attribute [instance] Context.heightOrder Context.addressEq Context.valueEq
  Context.valueIdEq Context.signatureEq Context.publicKeyEq

/-- Tests of membership in a list of addresses decide through this instance. -/
instance Context.addressLawfulBEq (C : Context) : LawfulBEq C.Address := inferInstance

/-- A vote value: `nil` or the id of a value. -/
inductive NilOrVal (α : Type) where
  | nil
  | val (value : α)
deriving DecidableEq, Repr

inductive VoteType where
  | prevote
  | precommit
deriving DecidableEq, Repr

inductive Validity where
  | valid
  | invalid
deriving DecidableEq, Repr

def Validity.isValid : Validity → Bool
  | .valid => true
  | .invalid => false

inductive TimeoutKind where
  | propose
  | prevote
  | precommit
  | rebroadcast
deriving DecidableEq, Repr

structure Timeout where
  kind : TimeoutKind
  round : Round
deriving DecidableEq, Repr

def Timeout.propose (round : Round) : Timeout := ⟨.propose, round⟩

def Timeout.prevote (round : Round) : Timeout := ⟨.prevote, round⟩

def Timeout.precommit (round : Round) : Timeout := ⟨.precommit, round⟩

variable (C : Context)

/-- A vote, as built by `Context::new_prevote` and `Context::new_precommit`. -/
structure Vote where
  height : C.Height
  round : Round
  value : NilOrVal C.ValueId
  voteType : VoteType
  validatorAddress : C.Address
deriving DecidableEq

/-- A proposal, as built by `Context::new_proposal`. -/
structure Proposal where
  height : C.Height
  round : Round
  value : C.Value
  polRound : Round
  validatorAddress : C.Address
deriving DecidableEq

/-- `SignedMessage`: a message together with its signature.  Equality compares
both, as the derived `PartialEq` does. -/
structure SignedMessage (Msg : Type) where
  message : Msg
  signature : C.Signature
deriving DecidableEq

abbrev SignedVote := SignedMessage C (Vote C)

abbrev SignedProposal := SignedMessage C (Proposal C)

structure Validator where
  address : C.Address
  publicKey : C.PublicKey
  votingPower : Nat
deriving DecidableEq

/-- The validator set of the test context: a list of validators, looked up by
address with `find`. -/
structure ValidatorSet where
  validators : List (Validator C)
deriving DecidableEq

variable {C}

def Vote.newPrevote (height : C.Height) (round : Round) (value : NilOrVal C.ValueId)
    (address : C.Address) : Vote C :=
  { height, round, value, voteType := .prevote, validatorAddress := address }

def Vote.newPrecommit (height : C.Height) (round : Round) (value : NilOrVal C.ValueId)
    (address : C.Address) : Vote C :=
  { height, round, value, voteType := .precommit, validatorAddress := address }

namespace ValidatorSet

def count (set : ValidatorSet C) : Nat :=
  set.validators.length

def totalVotingPower (set : ValidatorSet C) : Nat :=
  (set.validators.map Validator.votingPower).sum

def getByAddress (set : ValidatorSet C) (address : C.Address) : Option (Validator C) :=
  set.validators.find? (fun validator => validator.address = address)

/-- The validators' addresses are pairwise distinct, as the `ValidatorSet`
trait documents. -/
def AddressesDistinct (set : ValidatorSet C) : Prop :=
  (set.validators.map Validator.address).Nodup

instance (set : ValidatorSet C) : Decidable set.AddressesDistinct :=
  inferInstanceAs (Decidable (set.validators.map Validator.address).Nodup)

/-- The voting power a validator set assigns to an address, `0` when unknown. -/
def powerOf (set : ValidatorSet C) (address : C.Address) : Nat :=
  match set.getByAddress address with
  | some validator => validator.votingPower
  | none => 0

theorem getByAddress_address {set : ValidatorSet C} {address : C.Address}
    {validator : Validator C} (found : set.getByAddress address = some validator) :
    validator.address = address := by
  simpa using List.find?_some found

theorem getByAddress_mem {set : ValidatorSet C} {address : C.Address}
    {validator : Validator C} (found : set.getByAddress address = some validator) :
    validator ∈ set.validators :=
  List.mem_of_find?_eq_some found

theorem powerOf_of_getByAddress {set : ValidatorSet C} {address : C.Address}
    {validator : Validator C} (found : set.getByAddress address = some validator) :
    set.powerOf address = validator.votingPower := by
  simp [powerOf, found]

theorem mem_addresses_of_getByAddress {set : ValidatorSet C} {address : C.Address}
    {validator : Validator C} (found : set.getByAddress address = some validator) :
    address ∈ set.validators.map Validator.address := by
  rw [← getByAddress_address found]
  exact List.mem_map_of_mem (getByAddress_mem found)

theorem getByAddress_of_mem {set : ValidatorSet C} {validator : Validator C}
    (distinct : set.AddressesDistinct) (member : validator ∈ set.validators) :
    set.getByAddress validator.address = some validator := by
  cases found : set.getByAddress validator.address with
  | none =>
      have absent := List.find?_eq_none.mp found validator member
      simp at absent
  | some other =>
      have otherMember := getByAddress_mem found
      have same : other = validator :=
        List.inj_on_of_nodup_map distinct otherMember member (getByAddress_address found)
      rw [same]

theorem powerOf_of_mem {set : ValidatorSet C} {validator : Validator C}
    (distinct : set.AddressesDistinct) (member : validator ∈ set.validators) :
    set.powerOf validator.address = validator.votingPower :=
  powerOf_of_getByAddress (getByAddress_of_mem distinct member)

/-- With distinct addresses, the total voting power is the sum of the power of
each address. -/
theorem totalVotingPower_eq_sum_powerOf {set : ValidatorSet C} (distinct : set.AddressesDistinct) :
    set.totalVotingPower = ((set.validators.map Validator.address).map set.powerOf).sum := by
  unfold totalVotingPower
  rw [List.map_map]
  congr 1
  apply List.map_congr_left
  intro validator member
  exact (powerOf_of_mem distinct member).symm

end ValidatorSet

/-- `ThresholdParam`: a fraction `numerator / denominator` of the total
weight.  `is_met` compares cross-multiplied products; the source's overflow
checks on those products are not modelled. -/
structure ThresholdParam where
  numerator : Nat
  denominator : Nat
deriving DecidableEq, Repr

namespace ThresholdParam

def twoFPlusOne : ThresholdParam := ⟨2, 3⟩

def fPlusOne : ThresholdParam := ⟨1, 3⟩

def isMet (param : ThresholdParam) (weight total : Nat) : Bool :=
  decide (weight * param.denominator > total * param.numerator)

def minExpected (param : ThresholdParam) (total : Nat) : Nat :=
  1 + total * param.numerator / param.denominator

theorem isMet_iff {param : ThresholdParam} {weight total : Nat} :
    param.isMet weight total = true ↔ total * param.numerator < weight * param.denominator := by
  simp [isMet]

/-- Meeting a threshold is monotone in the weight. -/
theorem isMet_mono {param : ThresholdParam} {weight weight' total : Nat}
    (met : param.isMet weight total = true) (larger : weight ≤ weight') :
    param.isMet weight' total = true := by
  rw [isMet_iff] at met ⊢
  exact Nat.lt_of_lt_of_le met (Nat.mul_le_mul_right _ larger)

end ThresholdParam

structure ThresholdParams where
  quorum : ThresholdParam
  honest : ThresholdParam
deriving DecidableEq, Repr

/-- `ThresholdParams::default()`: quorum `2f+1`, honest `f+1`. -/
def ThresholdParams.default : ThresholdParams :=
  { quorum := .twoFPlusOne, honest := .fPlusOne }

/-- The thresholds a vote count is compared against. -/
inductive Threshold (α : Type) where
  | unreached
  | any
  | nil
  | value (id : α)
deriving DecidableEq, Repr

/-- The context of the test crate: every type is a natural number and a value
is its own id. -/
abbrev testContext : Context where
  Height := Nat
  Address := Nat
  Value := Nat
  ValueId := Nat
  Signature := Nat
  PublicKey := Nat
  zero := 0
  id := fun value => value

/-- Four validators of the test context, each of power one, at addresses 0 to 3. -/
def fourValidators : ValidatorSet testContext :=
  ⟨[⟨0, 0, 1⟩, ⟨1, 1, 1⟩, ⟨2, 2, 1⟩, ⟨3, 3, 1⟩]⟩

end Malachite
