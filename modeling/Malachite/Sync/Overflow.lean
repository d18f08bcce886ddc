import Malachite.Sync.Handle

/-! The height arithmetic of the sync handlers on `u64` (`sync/src/handle.rs`, and
`ValueResponse::end_height` in `types.rs`).  The release profile keeps overflow checks on,
so an addition past `u64::MAX` or a subtraction below zero panics, as does the `unwrap` of a
`None`.  The handlers of `Handle` compute on `Nat`; here the steps of the two arms that
compute on heights a peer chose are taken again on `u64`, in the source's order, and
`valueResponseChecks_ok` shows that where nothing panics they decide as the `Nat` model
does. -/

namespace Malachite.Sync

/-- What stops a handler: a failed overflow check, or an `unwrap` of `None`. -/
inductive Panic where
  | overflow
  | underflow
  | unwrapNone
deriving DecidableEq, Repr

/-- One more than `u64::MAX`. -/
def u64Bound : Nat := 2 ^ 64

/-- `Height::increment_by` of the test height, `self.0 + n` on `u64`. -/
def incrementBy (height n : Nat) : Except Panic Nat :=
  if height + n < u64Bound then .ok (height + n) else .error .overflow

/-- `end - start + 1` on `u64`. -/
def rangeLength (start stop : Nat) : Except Panic Nat :=
  if stop < start then .error .underflow
  else if stop - start + 1 < u64Bound then .ok (stop - start + 1) else .error .overflow

/-- `ValueResponse::end_height`: the start incremented by one less than the number of
values. -/
def endHeightChecked (response : ValueResponse) : Except Panic (Option Nat) :=
  if response.values.isEmpty then .ok none
  else (incrementBy response.startHeight (response.values.length - 1)).map some

/-- The loop of the `ValueResponse` arm over the values: stop at the first certificate
height that is not the expected one, and increment the expected height after every value,
the last one included. -/
def certificateHeightsChecked : Nat → List RawDecidedValue → Except Panic Bool
  | _, [] => .ok true
  | currentHeight, value :: rest =>
      if value.certificateHeight ≠ currentHeight then .ok false
      else
        match incrementBy currentHeight 1 with
        | .error panic => .error panic
        | .ok next => certificateHeightsChecked next rest

/-- The arithmetic of the `ValueResponse` arm once the request is taken from the inflight
requests: whether the response is accepted. -/
def valueResponseChecks (requestedRange : Span) (response : ValueResponse) : Except Panic Bool :=
  match endHeightChecked response with
  | .error panic => .error panic
  | .ok endHeight =>
      let start := response.startHeight
      let endHeight := endHeight.getD start
      match rangeLength start endHeight with
      | .error panic => .error panic
      | .ok rangeLen =>
          match certificateHeightsChecked start response.values with
          | .error panic => .error panic
          | .ok false => .ok false
          | .ok true =>
              if start = requestedRange.start ∧ start ≤ endHeight ∧
                  endHeight ≤ requestedRange.stop ∧ response.values.length = rangeLen then
                -- `requested_range.start().increment_by(len).decrement().unwrap()`
                match incrementBy requestedRange.start response.values.length with
                | .error panic => .error panic
                | .ok afterEnd =>
                    match decrement afterEnd with
                    | none => .error .unwrapNone
                    | some _ => .ok true
              else .ok false

/-- The loop of `on_got_decided_values` over the host's values: the expected height is
incremented after every value. -/
def incrementPerValue : Nat → List RawDecidedValue → Except Panic Unit
  | _, [] => .ok ()
  | height, _ :: rest =>
      match incrementBy height 1 with
      | .error panic => .error panic
      | .ok next => incrementPerValue next rest

/-- The arithmetic of `on_got_decided_values`: the expected number of values, then the
loop over them. -/
def gotDecidedValuesChecks (range : Span) (values : List RawDecidedValue) : Except Panic Unit :=
  match rangeLength range.start range.stop with
  | .error panic => .error panic
  | .ok _ => incrementPerValue range.start values

section Arithmetic

variable {height n start stop length : Nat}

theorem incrementBy_of_lt (fits : height + n < u64Bound) : incrementBy height n = .ok (height + n) :=
  if_pos fits

theorem incrementBy_of_le (past : u64Bound ≤ height + n) : incrementBy height n = .error .overflow :=
  if_neg (not_lt.mpr past)

theorem incrementBy_ok {result : Nat} (done : incrementBy height n = .ok result) :
    result = height + n := by
  unfold incrementBy at done
  split at done
  · cases done
    rfl
  · cases done

theorem rangeLength_ok (done : rangeLength start stop = .ok length) : length = stop - start + 1 := by
  unfold rangeLength at done
  split at done
  · cases done
  · split at done
    · cases done
      rfl
    · cases done

end Arithmetic

theorem endHeightChecked_ok {response : ValueResponse} {endHeight : Option Nat}
    (done : endHeightChecked response = .ok endHeight) : endHeight = response.endHeight := by
  unfold endHeightChecked at done
  unfold ValueResponse.endHeight
  split at done
  · next empty =>
    cases done
    rw [if_pos empty]
  · next nonempty =>
    rw [if_neg nonempty]
    cases incremented : incrementBy response.startHeight (response.values.length - 1) with
    | error panic => simp [incremented, Except.map] at done
    | ok next =>
        simp only [incremented, Except.map, Except.ok.injEq] at done
        rw [← done, incrementBy_ok incremented]

/-- Where the loop does not panic, it checks what the `Nat` loop checks. -/
theorem certificateHeightsChecked_ok {currentHeight : Nat} {values : List RawDecidedValue}
    {accepted : Bool} (done : certificateHeightsChecked currentHeight values = .ok accepted) :
    accepted = certificateHeightsFrom currentHeight values := by
  induction values generalizing currentHeight with
  | nil =>
      cases done
      rfl
  | cons value rest ih =>
      unfold certificateHeightsChecked at done
      split at done
      · next wrong =>
        cases done
        simp [certificateHeightsFrom, wrong]
      · next same =>
        have same : value.certificateHeight = currentHeight := not_not.mp same
        cases incremented : incrementBy currentHeight 1 with
        | error panic => simp [incremented] at done
        | ok next =>
            simp only [incremented] at done
            rw [ih done, incrementBy_ok incremented]
            simp [certificateHeightsFrom, same]

/-- Values whose certificate heights run on to `u64::MAX` make the loop panic when it
increments after the last one. -/
theorem certificateHeightsChecked_overflow {currentHeight : Nat} {values : List RawDecidedValue}
    (consecutive : certificateHeightsFrom currentHeight values = true) (nonempty : values ≠ [])
    (reaches : currentHeight + values.length = u64Bound) :
    certificateHeightsChecked currentHeight values = .error .overflow := by
  induction values generalizing currentHeight with
  | nil => exact absurd rfl nonempty
  | cons value rest ih =>
      simp only [certificateHeightsFrom, Bool.and_eq_true, beq_iff_eq] at consecutive
      obtain ⟨same, later⟩ := consecutive
      simp only [List.length_cons] at reaches
      unfold certificateHeightsChecked
      rw [if_neg (not_not.mpr same)]
      cases rest with
      | nil => rw [incrementBy_of_le (by simp only [List.length_nil] at reaches; omega)]
      | cons next more =>
          rw [incrementBy_of_lt (by simp only [List.length_cons] at reaches; omega)]
          exact ih later (List.cons_ne_nil next more) (by omega)

/-- Where the `ValueResponse` arm does not panic, it accepts exactly the responses that the
`Nat` model `onValueResponse` accepts. -/
theorem valueResponseChecks_ok {requestedRange : Span} {response : ValueResponse}
    {accepted : Bool} (done : valueResponseChecks requestedRange response = .ok accepted) :
    accepted = (certificateHeightsFrom response.startHeight response.values &&
      decide (response.startHeight = requestedRange.start ∧
        response.startHeight ≤ response.endHeight.getD response.startHeight ∧
        response.endHeight.getD response.startHeight ≤ requestedRange.stop ∧
        response.values.length =
          response.endHeight.getD response.startHeight - response.startHeight + 1)) := by
  unfold valueResponseChecks at done
  cases ended : endHeightChecked response with
  | error panic => simp [ended] at done
  | ok endHeight =>
      obtain rfl := endHeightChecked_ok ended
      simp only [ended] at done
      cases counted : rangeLength response.startHeight (response.endHeight.getD response.startHeight) with
      | error panic => simp [counted] at done
      | ok rangeLen =>
          obtain rfl := rangeLength_ok counted
          simp only [counted] at done
          cases checked : certificateHeightsChecked response.startHeight response.values with
          | error panic => simp [checked] at done
          | ok consecutive =>
              rw [← certificateHeightsChecked_ok checked]
              cases consecutive with
              | false =>
                  simp only [checked, Except.ok.injEq] at done
                  simp [← done]
              | true =>
                  simp only [checked] at done
                  split at done
                  · -- a valid response: the end of the answered part is computed, and taken
                    next valid =>
                    split at done
                    · cases done
                    · split at done
                      · cases done
                      · cases done
                        rw [decide_eq_true valid]
                        rfl
                  · next invalid =>
                    cases done
                    rw [decide_eq_false invalid]
                    rfl

/-- A response whose certificate heights run on to `u64::MAX` passes the height checks and
then panics: the loop increments after the last value. -/
theorem valueResponseChecks_overflow (requestedRange : Span) {response : ValueResponse}
    (nonempty : response.values ≠ [])
    (consecutive : certificateHeightsFrom response.startHeight response.values = true)
    (reaches : response.startHeight + response.values.length = u64Bound) :
    valueResponseChecks requestedRange response = .error .overflow := by
  have present : 0 < response.values.length := List.length_pos_of_ne_nil nonempty
  have ended : endHeightChecked response =
      .ok (some (response.startHeight + (response.values.length - 1))) := by
    unfold endHeightChecked
    rw [if_neg (by simpa using nonempty), incrementBy_of_lt (by omega)]
    rfl
  unfold valueResponseChecks
  simp only [ended, Option.getD_some]
  cases counted : rangeLength response.startHeight
      (response.startHeight + (response.values.length - 1)) with
  | error panic =>
      -- the count itself overflows only for a response from height 0
      unfold rangeLength at counted
      rw [if_neg (by omega)] at counted
      split at counted
      · cases counted
      · cases counted
        rfl
  | ok rangeLen =>
      simp only [certificateHeightsChecked_overflow consecutive nonempty reaches]

/-- An inverted range makes `on_got_decided_values` panic on its first subtraction. -/
theorem gotDecidedValuesChecks_inverted {range : Span} (inverted : range.stop < range.start)
    (values : List RawDecidedValue) :
    gotDecidedValuesChecks range values = .error .underflow := by
  simp [gotDecidedValuesChecks, rangeLength, inverted]

theorem peer_input_panics :
    (∀ (range : Span) (values : List RawDecidedValue), range.stop < range.start →
      gotDecidedValuesChecks range values = .error .underflow) ∧
    ∀ (requestedRange : Span) (response : ValueResponse), response.values ≠ [] →
      certificateHeightsFrom response.startHeight response.values = true →
      response.startHeight + response.values.length = u64Bound →
      valueResponseChecks requestedRange response = .error .overflow :=
  ⟨fun _ values inverted => gotDecidedValuesChecks_inverted inverted values,
    fun requestedRange _ nonempty consecutive reaches =>
      valueResponseChecks_overflow requestedRange nonempty consecutive reaches⟩

/-- A request for heights 5 down to 3, which the codecs accept, and a response of one value
at `u64::MAX` to a request for heights 1 to 3. -/
theorem peer_input_panics_at_limits :
    ((⟨5, 3⟩ : Span).stop < (⟨5, 3⟩ : Span).start ∧
        gotDecidedValuesChecks ⟨5, 3⟩ [] = .error .underflow) ∧
      (([⟨u64Bound - 1⟩] : List RawDecidedValue) ≠ [] ∧
        certificateHeightsFrom (u64Bound - 1) [⟨u64Bound - 1⟩] = true ∧
        u64Bound - 1 + [(⟨u64Bound - 1⟩ : RawDecidedValue)].length = u64Bound ∧
        valueResponseChecks ⟨1, 3⟩ ⟨u64Bound - 1, [⟨u64Bound - 1⟩]⟩ = .error .overflow) := by
  have inverted : (⟨5, 3⟩ : Span).stop < (⟨5, 3⟩ : Span).start := by decide
  have nonempty : ([⟨u64Bound - 1⟩] : List RawDecidedValue) ≠ [] := List.cons_ne_nil _ _
  have consecutive : certificateHeightsFrom (u64Bound - 1) [⟨u64Bound - 1⟩] = true := by
    simp [certificateHeightsFrom]
  have reaches : u64Bound - 1 + [(⟨u64Bound - 1⟩ : RawDecidedValue)].length = u64Bound := by
    simp [u64Bound]
  exact ⟨⟨inverted, peer_input_panics.1 _ [] inverted⟩, nonempty, consecutive, reaches,
    peer_input_panics.2 ⟨1, 3⟩ ⟨u64Bound - 1, [⟨u64Bound - 1⟩]⟩ nonempty consecutive reaches⟩

end Malachite.Sync
