import Asioex.Lib.Machine

/-!
# The loop variable of `co_for`

A range holds the loop variable in raw storage, with `has_value` for whether it lives
there. `wait` assigns to it or constructs it, and the range's destructor destroys it, as
the flag says. `range_from_coro` sets the flag when it has the value that it constructs
the variable from. `range_from_channel` sets it before it awaits that value, and keeps it
when the receive throws: then the flag speaks of a variable that was never constructed.
-/

namespace Asioex

/-- `has_value` and `storage_`, with the object that lives there, and whether every use of
the storage so far found what it needs: no object to construct one, and one to assign to
or to destroy. -/
structure RangeStorage (T : Type) where
  hasValue : Bool
  object : Option T
  sound : Bool
deriving DecidableEq, Repr

namespace RangeStorage

variable {T : Type}

/-- The range is an aggregate of a reference and members that are value-initialised. -/
def create : RangeStorage T := ⟨false, none, true⟩

/-- `new (&storage_) T(value)`. -/
def construct (s : RangeStorage T) (value : T) : RangeStorage T :=
  { s with object := some value, sound := s.sound && s.object.isNone }

/-- `init() = value`. -/
def assign (s : RangeStorage T) (value : T) : RangeStorage T :=
  { s with object := s.object.map (fun _ => value), sound := s.sound && s.object.isSome }

/-- The destructor of the range: `if (has_value) init().~T()`. -/
def destroy (s : RangeStorage T) : RangeStorage T :=
  if s.hasValue then { s with object := none, sound := s.sound && s.object.isSome } else s

end RangeStorage

/-- Where a range is: outside `wait`, suspended in it at the expression that assigns to
the variable, at the one that constructs it, or at the resumption of the coroutine, or
destroyed. -/
inductive RangePlace where
  | outside
  | assigning
  | constructing
  | resuming
  | gone
deriving DecidableEq, Repr

structure Range (T : Type) where
  storage : RangeStorage T
  place : RangePlace
deriving DecidableEq, Repr

/-- What the awaited operation comes to: a value, the end of the coroutine, or an error,
which is thrown. -/
inductive RangeOutcome (T : Type) where
  | value (value : T)
  | ended
  | failed
deriving DecidableEq, Repr

namespace Range

variable {T : Type}

def create : Range T := ⟨.create, .outside⟩

/-- A call of `wait`, with whether it finds a cancellation and whether it finds the source
open; the continuation of a suspended call; and the range's destructor. -/
inductive Event (T : Type) where
  | wait (cancelled isOpen : Bool)
  | resume (outcome : RangeOutcome T)
  | destroy
deriving DecidableEq, Repr

/-- The destructor, outside `wait`. -/
def destroy (s : Range T) : Option (Range T) :=
  if s.place = .outside then some ⟨s.storage.destroy, .gone⟩ else none

/-- `range_from_channel`. A receive comes to a value or throws. -/
def channelStep (s : Range T) : Event T → Option (Range T)
  | .wait cancelled isOpen =>
    if s.place = .outside then
      if cancelled || !isOpen then some s
      else if s.storage.hasValue then some { s with place := .assigning }
      else some ⟨{ s.storage with hasValue := true }, .constructing⟩
    else none
  | .resume (.value value) =>
    match s.place with
    | .assigning => some ⟨s.storage.assign value, .outside⟩
    | .constructing => some ⟨s.storage.construct value, .outside⟩
    | _ => none
  | .resume .ended => none
  | .resume .failed =>
    match s.place with
    | .assigning | .constructing => some { s with place := .outside }
    | _ => none
  | .destroy => s.destroy

/-- `range_from_coro`. A resumption comes to a value, to none at the end, or throws. -/
def coroStep (s : Range T) : Event T → Option (Range T)
  | .wait cancelled isOpen =>
    if s.place = .outside then
      if cancelled || !isOpen then some s else some { s with place := .resuming }
    else none
  | .resume outcome =>
    if s.place = .resuming then
      match outcome with
      | .value value =>
        if s.storage.hasValue then some ⟨s.storage.assign value, .outside⟩
        else some ⟨{ s.storage with hasValue := true }.construct value, .outside⟩
      | .ended | .failed => some { s with place := .outside }
    else none
  | .destroy => s.destroy

def channel : Machine (Range T) (Event T) := ⟨channelStep⟩

def coro : Machine (Range T) (Event T) := ⟨coroStep⟩

/-- The storage was used well, the flag outside `wait` is true exactly when the variable
lives, and nothing lives in a range that is destroyed. -/
def Consistent (_s : Range T) (_event : Event T) (next : Range T) : Prop :=
  next.storage.sound = true ∧
    (next.place = .outside → (next.storage.hasValue = true ↔ next.storage.object.isSome = true)) ∧
    (next.place = .gone → next.storage.object = none)

/-- An operation that throws finds a variable that was constructed before. -/
def Served (s : Range T) (event : Event T) (_next : Range T) : Prop :=
  event = .resume .failed → s.storage.object.isSome = true

/-- The storage was used well, and the flag says what lives there, but while the first
value is awaited. -/
structure Whole (s : Range T) : Prop where
  sound : s.storage.sound = true
  flag : s.place ≠ .constructing → s.place ≠ .gone → s.storage.hasValue = s.storage.object.isSome
  assigning : s.place = .assigning → s.storage.object.isSome = true
  constructing : s.place = .constructing → s.storage.hasValue = true ∧ s.storage.object = none
  gone : s.place = .gone → s.storage.object = none

theorem create_whole : (create : Range T).Whole where
  sound := rfl
  flag _ _ := rfl
  assigning := by simp [create]
  constructing := by simp [create]
  gone := by simp [create]

theorem Whole.consistent {s next : Range T} (event : Event T) (whole : next.Whole) :
    Consistent s event next := by
  refine ⟨whole.sound, fun outside => ?_, whole.gone⟩
  rw [whole.flag (by simp [outside]) (by simp [outside])]

namespace Whole

variable {s : Range T} (whole : s.Whole)
include whole

/-- Outside `wait` the variable lives if the flag is true, and only then. -/
theorem outside (outside : s.place = .outside) : s.storage.hasValue = s.storage.object.isSome :=
  whole.flag (by simp [outside]) (by simp [outside])

/-- The destructor destroys what lives in the storage. -/
theorem destroyed {next : Range T} (stepped : s.destroy = some next) : next.Whole := by
  simp only [destroy, Option.ite_none_right_eq_some, Option.some.injEq] at stepped
  obtain ⟨outside, rfl⟩ := stepped
  have flag := whole.outside outside
  cases lives : s.storage.object with
  | none =>
    have quiet : s.storage.hasValue = false := by simpa [lives] using flag
    have same : s.storage.destroy = s.storage := by simp [RangeStorage.destroy, quiet]
    rw [same]
    constructor <;> simp [whole.sound, lives]
  | some object =>
    have set : s.storage.hasValue = true := by simpa [lives] using flag
    constructor <;> simp [RangeStorage.destroy, set, whole.sound, lives]

/-- A variable that lives is assigned to. -/
theorem assigns (lives : s.storage.object.isSome = true) (flag : s.storage.hasValue = true)
    (value : T) : (⟨s.storage.assign value, .outside⟩ : Range T).Whole := by
  constructor <;> simp [RangeStorage.assign, whole.sound, lives, flag]

/-- One that does not is constructed. -/
theorem constructs (vacant : s.storage.object = none) (value : T) :
    (⟨{ s.storage with hasValue := true }.construct value, .outside⟩ : Range T).Whole := by
  constructor <;> simp [RangeStorage.construct, whole.sound, vacant]

/-- A step of `range_from_channel` at which a first receive does not fail. -/
theorem channelStep {event : Event T} {next : Range T}
    (stepped : channel.step s event = some next) (served : Served s event next) : next.Whole := by
  cases event with
  | wait cancelled isOpen =>
    simp only [channel, Range.channelStep, Option.ite_none_right_eq_some] at stepped
    obtain ⟨outside, waits⟩ := stepped
    have flag := whole.outside outside
    by_cases stops : (cancelled || !isOpen) = true
    · obtain rfl : s = next := by simpa [stops] using waits
      exact whole
    · by_cases set : s.storage.hasValue = true
      · obtain rfl : { s with place := .assigning } = next := by simpa [stops, set] using waits
        have lives : s.storage.object.isSome = true := flag.symm.trans set
        constructor <;> simp [whole.sound, set, lives]
      · obtain rfl : ⟨{ s.storage with hasValue := true }, .constructing⟩ = next := by
          simpa [stops, set] using waits
        have vacant : s.storage.object = none := by simpa [set] using flag.symm
        constructor <;> simp [whole.sound, vacant]
  | resume outcome =>
    cases outcome with
    | value value =>
      simp only [channel, Range.channelStep] at stepped
      split at stepped
      · next assigning =>
        obtain rfl := Option.some.inj stepped
        have lives := whole.assigning assigning
        have flag := whole.flag (by simp [assigning]) (by simp [assigning])
        exact whole.assigns lives (flag.trans lives) value
      · next constructing =>
        obtain rfl := Option.some.inj stepped
        obtain ⟨set, vacant⟩ := whole.constructing constructing
        have same : s.storage = { s.storage with hasValue := true } := by rw [← set]
        rw [same]
        exact whole.constructs vacant value
      · cases stepped
    | ended => cases stepped
    | failed =>
      have lives := served rfl
      have set : s.storage.hasValue = true := by
        by_cases constructing : s.place = .constructing
        · exact (whole.constructing constructing).1
        · by_cases gone : s.place = .gone
          · simp [whole.gone gone] at lives
          · exact (whole.flag constructing gone).trans lives
      have leaves : { s with place := .outside } = next := by
        simp only [channel, Range.channelStep] at stepped
        split at stepped
        · exact Option.some.inj stepped
        · exact Option.some.inj stepped
        · cases stepped
      subst leaves
      constructor <;> simp [whole.sound, set, lives]
  | destroy => exact whole.destroyed stepped

/-- Every step of `range_from_coro`. -/
theorem coroStep {event : Event T} {next : Range T} (stepped : coro.step s event = some next) :
    next.Whole := by
  cases event with
  | wait cancelled isOpen =>
    simp only [coro, Range.coroStep, Option.ite_none_right_eq_some] at stepped
    obtain ⟨outside, waits⟩ := stepped
    have flag := whole.outside outside
    by_cases stops : (cancelled || !isOpen) = true
    · obtain rfl : s = next := by simpa [stops] using waits
      exact whole
    · obtain rfl : { s with place := .resuming } = next := by simpa [stops] using waits
      constructor <;> simp [whole.sound, flag]
  | resume outcome =>
    simp only [coro, Range.coroStep, Option.ite_none_right_eq_some] at stepped
    obtain ⟨resuming, continues⟩ := stepped
    have flag := whole.flag (by simp [resuming]) (by simp [resuming])
    have leaves : ({ s with place := .outside } : Range T).Whole := by
      constructor <;> simp [whole.sound, flag]
    cases outcome with
    | value value =>
      by_cases set : s.storage.hasValue = true
      · obtain rfl : ⟨s.storage.assign value, .outside⟩ = next := by simpa [set] using continues
        exact whole.assigns (flag.symm.trans set) set value
      · obtain rfl : ⟨{ s.storage with hasValue := true }.construct value, .outside⟩ = next := by
          simpa [set] using continues
        have vacant : s.storage.object = none := by simpa [set] using flag.symm
        exact whole.constructs vacant value
    | ended =>
      obtain rfl := Option.some.inj continues
      exact leaves
    | failed =>
      obtain rfl := Option.some.inj continues
      exact leaves
  | destroy => exact whole.destroyed stepped

end Whole

/-- A first receive that fails leaves the flag set and the storage empty. -/
theorem channelStep_served {s next : Range T} {event : Event T} (whole : s.Whole)
    (stepped : channel.step s event = some next) (consistent : Consistent s event next) :
    Served s event next := by
  rintro rfl
  simp only [channel, channelStep] at stepped
  split at stepped
  · next assigning => exact whole.assigning assigning
  · next constructing =>
    obtain rfl := Option.some.inj stepped
    obtain ⟨set, -⟩ := whole.constructing constructing
    exact (consistent.2.1 rfl).mp set
  · cases stepped

/-- In every run of `range_from_coro` the flag says what lives in the storage. In a run of
`range_from_channel` it does exactly when every receive that fails finds a variable that
was constructed before. -/
theorem has_value_consistent_iff (events : List (Event T)) :
    coro.Along Consistent (create : Range T) events ∧
      (channel.Along Consistent (create : Range T) events ↔
        channel.Along Served (create : Range T) events) := by
  constructor
  · have keeps (s : Range T) (event : Event T) (next : Range T) (whole : s.Whole)
        (stepped : coro.step s event = some next) : Consistent s event next ∧ next.Whole := by
      have still := whole.coroStep stepped
      exact ⟨still.consistent event, still⟩
    exact coro.along_of_invariant keeps create_whole events
  · have agree (s : Range T) (event : Event T) (next : Range T) (_ : True) (whole : s.Whole)
        (stepped : channel.step s event = some next) :
        Consistent s event next ↔ Served s event next := by
      constructor
      · exact channelStep_served whole stepped
      · intro served
        exact (whole.channelStep stepped served).consistent event
    have keeps (s : Range T) (event : Event T) (next : Range T) (_ : True) (whole : s.Whole)
        (stepped : channel.step s event = some next) (served : Served s event next) : next.Whole :=
      whole.channelStep stepped served
    exact channel.along_iff agree keeps events (fun _ _ => trivial) create_whole

/-- The first receive fails, and the range is destroyed as the exception leaves the loop. -/
def firstFails : List (Event Nat) := [.wait false true, .resume .failed, .destroy]

theorem destroys_what_was_never_constructed :
    ∃ s, channel.run create firstFails = some s ∧ s.storage.sound = false ∧
      ¬channel.Along Consistent create firstFails := by
  refine ⟨_, rfl, rfl, fun along => ?_⟩
  have consistent := ((along _ rfl).2 _ rfl).1
  exact absurd ((consistent.2.1 rfl).mp rfl) (by decide)

end Range

end Asioex
