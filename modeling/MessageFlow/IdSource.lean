import MessageFlow.Text.Digits

/-! Where new ids come from: a numbered supply of names, and the number of the next one. What draws ids
    answers with the source that is left, so which ids a flow holds can be read off its definition. -/

namespace MessageFlow

-- Powers are those of core, whatever is imported beside.
attribute [local instance (high)] instPowNat

/-- A supply of ids. -/
structure IdSource where
  name : Nat → String
  next : Nat

namespace IdSource

/-- The ids drawn next. -/
def peek (ids : IdSource) (count : Nat) : List String :=
  (List.range count).map fun i => ids.name (ids.next + i)

/-- The source once ids have been drawn. -/
def skip (ids : IdSource) (count : Nat) : IdSource := { ids with next := ids.next + count }

/-- The next id. -/
def head (ids : IdSource) : String := ids.name ids.next

@[simp] theorem length_peek (ids : IdSource) (count : Nat) : (ids.peek count).length = count := by
  rw [peek, List.length_map, List.length_range]

/-- The next ids are the next one and those that follow it. -/
theorem peek_succ (ids : IdSource) (count : Nat) : ids.peek (count + 1) = ids.head :: (ids.skip 1).peek count := by
  simp only [peek, List.range_succ_eq_map, List.map_cons, List.map_map, head, skip, Nat.add_zero, List.cons.injEq,
    true_and]
  refine List.map_congr_left fun i _ => ?_
  rw [Function.comp_apply, Nat.succ_eq_add_one, Nat.add_assoc, Nat.add_comm 1 i]

/-! ### Random ids -/

/-- The last `width` digits of a number in base 16, with leading zeros. -/
def hexField (width n : Nat) : String :=
  let ds := Text.hexDigits (n % 16 ^ width)
  String.ofList (List.replicate (width - ds.length) '0' ++ ds)

/-- The low 122 bits of a number as a random UUID: version 4, variant 1. -/
def uuid (n : Nat) : String :=
  "-".intercalate
    [hexField 8 (n / 2 ^ (90 : Nat)), hexField 4 (n / 2 ^ (74 : Nat)), "4" ++ hexField 3 (n / 2 ^ (62 : Nat)),
      hexField 4 (0x8000 + n / 2 ^ (48 : Nat) % 2 ^ (14 : Nat)), hexField 12 n]

/-- The UUIDs that follow a random number. -/
def ofSeed (seed : Nat) : IdSource := ⟨fun n => uuid (seed + n), 0⟩

end IdSource
end MessageFlow
