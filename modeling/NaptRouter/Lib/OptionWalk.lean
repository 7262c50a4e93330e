import NaptRouter.Lib.ByteMemory
import Mathlib.Data.List.Basic

/-!
# Walks over options

A buffer of options is read by hopping from header to header: a code byte, a length byte and as
many value bytes. The code 255 ends the buffer, and the code 0 is padding. Two readers differ in
how they cross padding: one takes it for a header like any other (`tlvNext`), one skips the single
byte (`paddedNext`).

* `Comes next stop p q` — the walk from `p` comes to `q` before anything stops it. Where a walk
  first stops is unique (`Comes.unique`), and it stops if it does beyond a limit (`exists_stop`).
* `options` — what a reader yields. Padding yields nothing.
* `encode` — the bytes of a list of options and pads. Both readers yield the options
  (`padded_encode`, `tlv_encode`), the first one where pads come in pairs.
-/

namespace OptionWalk

open ByteMemory

/-! ## Walks -/

section Walks

variable {next next' : Nat → Nat} {stop stop' : Nat → Prop} {p q r : Nat}

/-- The walk from `p` comes to `q`, and nothing before `q` stops it. -/
inductive Comes (next : Nat → Nat) (stop : Nat → Prop) : Nat → Nat → Prop
  | here {p : Nat} : Comes next stop p p
  | step {p q : Nat} : ¬ stop p → Comes next stop (next p) q → Comes next stop p q

theorem Comes.trans (h : Comes next stop p q) (h' : Comes next stop q r) :
    Comes next stop p r := by
  induction h with
  | here => exact h'
  | step hp _ ih => exact .step hp (ih h')

theorem Comes.single (hp : ¬ stop p) : Comes next stop p (next p) := .step hp .here

theorem Comes.le (hnext : ∀ x, x < next x) (h : Comes next stop p q) : p ≤ q := by
  induction h with
  | here => exact le_rfl
  | step _ _ ih => exact (hnext _).le.trans ih

/-- There is one place where a walk stops first. -/
theorem Comes.unique (h : Comes next stop p q) (hq : stop q) (h' : Comes next stop p r)
    (hr : stop r) : q = r := by
  induction h with
  | here =>
    cases h' with
    | here => rfl
    | step hp _ => exact absurd hq hp
  | step hp _ ih =>
    cases h' with
    | here => exact absurd hr hp
    | step _ h' => exact ih hq h'

/-- Two walks that move and stop alike on the way. -/
theorem Comes.congr (hnext : ∀ x, x < next x) (h : Comes next stop p q)
    (hstop : ∀ x, p ≤ x → x < q → ¬ stop x → ¬ stop' x)
    (hsame : ∀ x, p ≤ x → x < q → ¬ stop x → next x ≤ q → next' x = next x) :
    Comes next' stop' p q := by
  induction h with
  | here => exact .here
  | @step p q hp hrest ih =>
    have hle : next p ≤ q := hrest.le hnext
    have hlt : p < q := lt_of_lt_of_le (hnext p) hle
    apply Comes.step (hstop p le_rfl hlt hp)
    rw [hsame p le_rfl hlt hp hle]
    exact ih (fun x hx => hstop x ((hnext p).le.trans hx))
      (fun x hx => hsame x ((hnext p).le.trans hx))

theorem Comes.mono (h : Comes next stop p q) (hstop : ∀ x, stop' x → stop x) :
    Comes next stop' p q := by
  induction h with
  | here => exact .here
  | step hp _ ih => exact .step (mt (hstop _) hp) ih

/-- A walk that moves on and stops beyond a limit stops. -/
theorem exists_stop (hnext : ∀ x, x < next x) {limit : Nat} (hstop : ∀ x, limit ≤ x → stop x)
    (p : Nat) : ∃ q, Comes next stop p q ∧ stop q := by
  by_cases hp : stop p
  · exact ⟨p, .here, hp⟩
  · have hlt : p < limit := Nat.lt_of_not_le fun hle => hp (hstop p hle)
    have hdec : limit - next p < limit - p := by
      have := hnext p
      omega
    obtain ⟨q, hq, hstopq⟩ := exists_stop hnext hstop (next p)
    exact ⟨q, .step hp hq, hstopq⟩
termination_by limit - p

end Walks

/-! ## Readers -/

/-- Every header is a code and a length. -/
def tlvNext (m : Mem) (p : Nat) : Nat := p + (2 + (m (p + 1)).toNat)

/-- Padding is a single byte. -/
def paddedNext (m : Mem) (p : Nat) : Nat := if m p = 0 then p + 1 else tlvNext m p

theorem lt_tlvNext (m : Mem) (p : Nat) : p < tlvNext m p := by
  rw [tlvNext]
  omega

theorem lt_paddedNext (m : Mem) (p : Nat) : p < paddedNext m p := by
  rw [paddedNext]
  split_ifs
  · exact Nat.lt_succ_self p
  · exact lt_tlvNext m p

/-- The two readers. -/
def Reader (reader : Mem → Nat → Nat) : Prop := reader = tlvNext ∨ reader = paddedNext

theorem Reader.lt {reader : Mem → Nat → Nat} (h : Reader reader) (m : Mem) (p : Nat) :
    p < reader m p := by
  rcases h with rfl | rfl
  · exact lt_tlvNext m p
  · exact lt_paddedNext m p

/-- Behind a code that is not padding both readers look at the length. -/
theorem Reader.eq_tlvNext {reader : Mem → Nat → Nat} (h : Reader reader) {m : Mem} {p : Nat}
    (hpad : m p ≠ 0) : reader m p = tlvNext m p := by
  rcases h with rfl | rfl
  · rfl
  · rw [paddedNext, if_neg hpad]

/-- A reader looks at the code, and at the length if it does not go to the very next byte. -/
theorem Reader.congr {reader : Mem → Nat → Nat} (h : Reader reader) {m m' : Mem} {p : Nat}
    (hcode : m' p = m p) (hlength : reader m p = p + 1 ∨ m' (p + 1) = m (p + 1)) :
    reader m' p = reader m p := by
  have htwo : tlvNext m p ≠ p + 1 := by
    rw [tlvNext]
    omega
  rcases h with rfl | rfl
  · rw [tlvNext, tlvNext, hlength.resolve_left htwo]
  · rw [paddedNext, paddedNext, hcode]
    by_cases hpad : m p = 0
    · rw [if_pos hpad, if_pos hpad]
    · rw [paddedNext, if_neg hpad] at hlength
      rw [if_neg hpad, if_neg hpad, tlvNext, tlvNext, hlength.resolve_left htwo]

/-- Where the options end: at the code 255, or at the limit. -/
def Ends (m : Mem) (limit p : Nat) : Prop := m p = 255 ∨ limit ≤ p

/-- The code and the value of the option at `p`. -/
def optionAt (m : Mem) (p : Nat) : UInt8 × List UInt8 := (m p, m.read (p + 2) (m (p + 1)).toNat)

def optionsLoop (next : Nat → Nat) (m : Mem) (limit : Nat) :
    Nat → Nat → List (UInt8 × List UInt8)
  | 0, _ => []
  | fuel + 1, p =>
      if m p ≠ 255 ∧ p < limit then
        if m p = 0 then optionsLoop next m limit fuel (next p)
        else optionAt m p :: optionsLoop next m limit fuel (next p)
      else []

/-- The options that a reader yields from `p` on. -/
def options (next : Nat → Nat) (m : Mem) (limit p : Nat) : List (UInt8 × List UInt8) :=
  optionsLoop next m limit limit p

section Reader

variable {next : Nat → Nat} {m : Mem} {limit p q : Nat}

theorem ends_iff : ¬ Ends m limit p ↔ m p ≠ 255 ∧ p < limit := by
  rw [Ends, not_or, Nat.not_le]

/-- Every hop takes a byte of the buffer, so there are enough. -/
theorem optionsLoop_fuel (hnext : ∀ x, x < next x) {fuel fuel' : Nat} (h : limit ≤ p + fuel)
    (h' : limit ≤ p + fuel') :
    optionsLoop next m limit fuel p = optionsLoop next m limit fuel' p := by
  induction fuel generalizing p fuel' with
  | zero =>
    cases fuel' with
    | zero => rfl
    | succ fuel' => rw [optionsLoop, optionsLoop, if_neg (by omega)]
  | succ fuel ih =>
    cases fuel' with
    | zero => rw [optionsLoop, optionsLoop, if_neg (by omega)]
    | succ fuel' =>
      have hlt := hnext p
      rw [optionsLoop, optionsLoop, @ih (next p) fuel' (by omega) (by omega)]

theorem options_end (h : Ends m limit p) : options next m limit p = [] := by
  rw [options]
  cases limit with
  | zero => rfl
  | succ limit => rw [optionsLoop, if_neg fun hgo => ends_iff.2 hgo h]

theorem options_step (hnext : ∀ x, x < next x) (h : ¬ Ends m limit p) :
    options next m limit p =
      if m p = 0 then options next m limit (next p)
      else optionAt m p :: options next m limit (next p) := by
  obtain ⟨hcode, hlt⟩ := ends_iff.1 h
  obtain ⟨fuel, hfuel⟩ : ∃ fuel, limit = fuel + 1 := ⟨limit - 1, by omega⟩
  have hmore : optionsLoop next m limit fuel (next p) = optionsLoop next m limit limit (next p) :=
    optionsLoop_fuel hnext (by have := hnext p; omega) (by omega)
  rw [options, options, ← hmore]
  conv_lhs => rw [hfuel]
  rw [optionsLoop, ← hfuel, if_pos ⟨hcode, hlt⟩]

theorem options_pad (hnext : ∀ x, x < next x) (h : ¬ Ends m limit p) (hpad : m p = 0) :
    options next m limit p = options next m limit (next p) := by
  rw [options_step hnext h, if_pos hpad]

theorem options_cons (hnext : ∀ x, x < next x) (h : ¬ Ends m limit p) (hpad : m p ≠ 0) :
    options next m limit p = optionAt m p :: options next m limit (next p) := by
  rw [options_step hnext h, if_neg hpad]

/-- What is passed without meeting a code yields no option of that code. -/
theorem filter_options_of_comes (hnext : ∀ x, x < next x) {code : UInt8}
    (h : Comes next (fun x => Ends m limit x ∨ m x = code) p q) :
    (options next m limit p).filter (·.1 = code) =
      (options next m limit q).filter (·.1 = code) := by
  induction h with
  | here => rfl
  | @step p q hp _ ih =>
    obtain ⟨hend, hcode⟩ := not_or.1 hp
    rw [← ih, options_step hnext hend]
    split_ifs with hpad
    · rfl
    · exact List.filter_cons_of_neg fun h => hcode (of_decide_eq_true h)

theorem filter_options_cons (hnext : ∀ x, x < next x) {code : UInt8} (hpad : code ≠ 0)
    (h : ¬ Ends m limit p) (hcode : m p = code) :
    (options next m limit p).filter (·.1 = code) =
      optionAt m p :: (options next m limit (next p)).filter (·.1 = code) := by
  rw [options_cons hnext h (hcode ▸ hpad)]
  exact List.filter_cons_of_pos (decide_eq_true hcode)

/-- On its way from `p` to `q` a reader yields `l`. -/
inductive Yields (next : Nat → Nat) (m : Mem) (limit : Nat) :
    Nat → Nat → List (UInt8 × List UInt8) → Prop
  | here {p : Nat} : Yields next m limit p p []
  | pad {p q : Nat} {l : List (UInt8 × List UInt8)} : ¬ Ends m limit p → m p = 0 →
      Yields next m limit (next p) q l → Yields next m limit p q l
  | opt {p q : Nat} {l : List (UInt8 × List UInt8)} : ¬ Ends m limit p → m p ≠ 0 →
      Yields next m limit (next p) q l → Yields next m limit p q (optionAt m p :: l)

namespace Yields

variable {l l' : List (UInt8 × List UInt8)} {r : Nat}

theorem trans (h : Yields next m limit p q l) (h' : Yields next m limit q r l') :
    Yields next m limit p r (l ++ l') := by
  induction h with
  | here => exact h'
  | pad hend hpad _ ih => exact .pad hend hpad (ih h')
  | opt hend hpad _ ih => exact .opt hend hpad (ih h')

theorem comes (h : Yields next m limit p q l) : Comes next (Ends m limit) p q := by
  induction h with
  | here => exact .here
  | pad hend _ _ ih => exact .step hend ih
  | opt hend _ _ ih => exact .step hend ih

theorem options_eq (hnext : ∀ x, x < next x) (h : Yields next m limit p q l) :
    options next m limit p = l ++ options next m limit q := by
  induction h with
  | here => rfl
  | pad hend hpad _ ih => rw [options_pad hnext hend hpad, ih]
  | opt hend hpad _ ih => rw [options_cons hnext hend hpad, ih, List.cons_append]

/-- A code that is not among the options yielded is not met. -/
theorem comes_code {code : UInt8} (hcode : code ≠ 0) (h : Yields next m limit p q l)
    (hl : ∀ o ∈ l, o.1 ≠ code) : Comes next (fun x => Ends m limit x ∨ m x = code) p q := by
  induction h with
  | here => exact .here
  | pad hend hpad _ ih =>
    refine .step (not_or.2 ⟨hend, ?_⟩) (ih hl)
    rw [hpad]
    exact hcode.symm
  | opt hend _ _ ih =>
    rw [List.forall_mem_cons] at hl
    exact .step (not_or.2 ⟨hend, hl.1⟩) (ih hl.2)

end Yields

end Reader

/-! ## Encoded options -/

/-- Padding, or an option with its value. -/
inductive Item
  | pad
  | opt (code : UInt8) (value : List UInt8)

def Item.encode : Item → List UInt8
  | .pad => [0]
  | .opt code value => code :: UInt8.ofNat value.length :: value

/-- The code is not that of padding or of the end, and the length fits its byte. -/
def Item.WellFormed : Item → Prop
  | .pad => True
  | .opt code value => code ≠ 0 ∧ code ≠ 255 ∧ value.length < 256

instance : (item : Item) → Decidable item.WellFormed
  | .pad => inferInstanceAs (Decidable True)
  | .opt _ _ => inferInstanceAs (Decidable (_ ∧ _ ∧ _))

def encode (items : List Item) : List UInt8 := items.flatMap Item.encode

/-- The options among the items. -/
def values : List Item → List (UInt8 × List UInt8)
  | [] => []
  | .pad :: items => values items
  | .opt code value :: items => (code, value) :: values items

/-- The items before the first option with a code. -/
def beforeFirst (code : UInt8) : List Item → List Item
  | [] => []
  | .pad :: items => .pad :: beforeFirst code items
  | .opt code' value :: items =>
      if code' = code then [] else .opt code' value :: beforeFirst code items

/-- The value of the first option with a code. -/
def firstValue (code : UInt8) : List Item → Option (List UInt8)
  | [] => none
  | .pad :: items => firstValue code items
  | .opt code' value :: items => if code' = code then some value else firstValue code items

/-- Padding comes in pairs. -/
inductive PairedPads : List Item → Prop
  | nil : PairedPads []
  | pads {items : List Item} : PairedPads items → PairedPads (.pad :: .pad :: items)
  | opt {items : List Item} (code : UInt8) (value : List UInt8) :
      PairedPads items → PairedPads (.opt code value :: items)

/-- The bytes `bs` stand at `p`. -/
def Holds (m : Mem) (p : Nat) (bs : List UInt8) : Prop := m.read p bs.length = bs

section Encoded

variable {next : Nat → Nat} {m : Mem} {limit p q : Nat} {items : List Item}

theorem holds_append {bs bs' : List UInt8} :
    Holds m p (bs ++ bs') ↔ Holds m p bs ∧ Holds m (p + bs.length) bs' := by
  rw [Holds, List.length_append, Mem.read_add]
  constructor
  · intro h
    exact List.append_inj h (Mem.length_read ..)
  · intro hand
    rw [hand.1, hand.2]

theorem holds_cons {b : UInt8} {bs : List UInt8} :
    Holds m p (b :: bs) ↔ m p = b ∧ Holds m (p + 1) bs := by
  rw [← List.singleton_append, holds_append]
  simp [Holds, Mem.read]

/-- The header of an encoded option leads behind its value, for both readers. -/
theorem opt_encode {code : UInt8} {value : List UInt8}
    (hwf : (Item.opt code value).WellFormed) (h : Holds m p (Item.opt code value).encode) :
    optionAt m p = (code, value) ∧
      tlvNext m p = p + (Item.opt code value).encode.length ∧
      paddedNext m p = p + (Item.opt code value).encode.length := by
  obtain ⟨hpad, -, hlen⟩ := hwf
  obtain ⟨hcode, h⟩ := holds_cons.1 h
  obtain ⟨hlength, hvalue⟩ := holds_cons.1 h
  have hnat : (m (p + 1)).toNat = value.length := by
    rw [hlength, UInt8.toNat_ofNat', Nat.mod_eq_of_lt hlen]
  have htlv : tlvNext m p = p + (Item.opt code value).encode.length := by
    rw [tlvNext, hnat, Item.encode, List.length_cons, List.length_cons]
    omega
  refine ⟨?_, htlv, ?_⟩
  · rw [optionAt, hnat, hcode]
    exact congrArg (code, ·) hvalue
  · rw [paddedNext, if_neg (hcode ▸ hpad), htlv]

theorem Yields.skip {r : Nat} {l : List (UInt8 × List UInt8)} (hpad : m p = 0) (hlt : p < limit)
    (hq : next p = q) (h : Yields next m limit q r l) : Yields next m limit p r l := by
  subst hq
  exact .pad (ends_iff.2 ⟨by rw [hpad]; decide, hlt⟩) hpad h

theorem Yields.take {r : Nat} {l : List (UInt8 × List UInt8)} {code : UInt8} {value : List UInt8}
    (hwf : (Item.opt code value).WellFormed) (hopt : optionAt m p = (code, value))
    (hlt : p < limit) (hq : next p = q) (h : Yields next m limit q r l) :
    Yields next m limit p r ((code, value) :: l) := by
  subst hq
  have hcode : m p = code := congrArg Prod.fst hopt
  rw [← hopt]
  exact .opt (ends_iff.2 ⟨hcode ▸ hwf.2.1, hlt⟩) (hcode ▸ hwf.1) h

/-- **The reader that skips pads** yields the options of any items. -/
theorem padded_encode (hwf : ∀ item ∈ items, item.WellFormed) (h : Holds m p (encode items))
    (hlimit : p + (encode items).length ≤ limit) :
    Yields (paddedNext m) m limit p (p + (encode items).length) (values items) := by
  induction items generalizing p with
  | nil => exact .here
  | cons item items ih =>
    rw [encode, List.flatMap_cons] at h hlimit ⊢
    obtain ⟨hitem, hrest⟩ := holds_append.1 h
    rw [List.length_append] at hlimit ⊢
    have hmore := ih (fun i hi => hwf i (List.mem_cons_of_mem _ hi)) hrest
      (by rw [encode]; omega)
    rw [Nat.add_assoc] at hmore
    have hwf := hwf item List.mem_cons_self
    cases item with
    | pad =>
      have hpad : m p = 0 := (holds_cons.1 hitem).1
      have hone : paddedNext m p = p + Item.pad.encode.length := by
        rw [paddedNext, if_pos hpad]
        rfl
      have hlen : Item.pad.encode.length = 1 := rfl
      exact .skip hpad (by omega) hone hmore
    | opt code value =>
      obtain ⟨hopt, -, hnext⟩ := opt_encode hwf hitem
      have hlen : (Item.opt code value).encode.length = value.length + 2 := rfl
      exact .take hwf hopt (by omega) hnext hmore

/-- **The reader that takes a pad for a header** yields the options, too, where it takes two pads
at a time. -/
theorem tlv_encode (hpaired : PairedPads items) (hwf : ∀ item ∈ items, item.WellFormed)
    (h : Holds m p (encode items)) (hlimit : p + (encode items).length ≤ limit) :
    Yields (tlvNext m) m limit p (p + (encode items).length) (values items) := by
  induction hpaired generalizing p with
  | nil => exact .here
  | @pads items _ ih =>
    have hcons : encode (.pad :: .pad :: items) = 0 :: 0 :: encode items := rfl
    rw [hcons] at h hlimit ⊢
    obtain ⟨hpad, hrest⟩ := holds_cons.1 h
    obtain ⟨hlength, hrest⟩ := holds_cons.1 hrest
    rw [List.length_cons, List.length_cons] at hlimit ⊢
    have hmore := ih (fun i hi => hwf i (List.mem_cons_of_mem _ (List.mem_cons_of_mem _ hi))) hrest
      (by omega)
    have htwo : tlvNext m p = p + 1 + 1 := by
      rw [tlvNext, hlength]
      rfl
    have hlen : p + 1 + 1 + (encode items).length = p + ((encode items).length + 1 + 1) := by omega
    rw [hlen] at hmore
    exact .skip hpad (by omega) htwo hmore
  | @opt items code value _ ih =>
    rw [encode, List.flatMap_cons] at h hlimit ⊢
    obtain ⟨hitem, hrest⟩ := holds_append.1 h
    rw [List.length_append] at hlimit ⊢
    have hmore := ih (fun i hi => hwf i (List.mem_cons_of_mem _ hi)) hrest
      (by rw [encode]; omega)
    rw [Nat.add_assoc] at hmore
    have hwf := hwf (.opt code value) List.mem_cons_self
    obtain ⟨hopt, hnext, -⟩ := opt_encode hwf hitem
    have hlen : (Item.opt code value).encode.length = value.length + 2 := rfl
    exact .take hwf hopt (by omega) hnext hmore

/-- The items up to the first option with a code, and that option. -/
theorem beforeFirst_spec (code : UInt8) (items : List Item) :
    (∀ o ∈ values (beforeFirst code items), o.1 ≠ code) ∧
      match firstValue code items with
      | none => beforeFirst code items = items
      | some value => ∃ rest, items = beforeFirst code items ++ .opt code value :: rest := by
  induction items with
  | nil => exact ⟨nofun, rfl⟩
  | cons item items ih =>
    cases item with
    | pad =>
      rw [beforeFirst, values, firstValue]
      refine ⟨ih.1, ?_⟩
      cases hfirst : firstValue code items with
      | none =>
        rw [hfirst] at ih
        exact congrArg (Item.pad :: ·) ih.2
      | some value =>
        rw [hfirst] at ih
        obtain ⟨rest, hrest⟩ := ih.2
        exact ⟨rest, congrArg (Item.pad :: ·) hrest⟩
    | opt code' value' =>
      rw [beforeFirst, firstValue]
      by_cases hcode : code' = code
      · rw [if_pos hcode, if_pos hcode, hcode]
        exact ⟨nofun, items, rfl⟩
      · rw [if_neg hcode, if_neg hcode, values]
        refine ⟨List.forall_mem_cons.2 ⟨hcode, ih.1⟩, ?_⟩
        cases hfirst : firstValue code items with
        | none =>
          rw [hfirst] at ih
          exact congrArg (Item.opt code' value' :: ·) ih.2
        | some value =>
          rw [hfirst] at ih
          obtain ⟨rest, hrest⟩ := ih.2
          exact ⟨rest, congrArg (Item.opt code' value' :: ·) hrest⟩

theorem mem_of_firstValue {code : UInt8} {value : List UInt8}
    (h : firstValue code items = some value) : .opt code value ∈ items := by
  have hfirst := (beforeFirst_spec code items).2
  rw [h] at hfirst
  obtain ⟨rest, hrest⟩ := hfirst
  rw [hrest]
  exact List.mem_append_right _ List.mem_cons_self

/-- **The first option with a code** is where the reader that takes a pad for a header first stops
for it, where pads come in pairs before it. -/
theorem tlv_first {code : UInt8} (hcode : code ≠ 0)
    (hpaired : PairedPads (beforeFirst code items)) (hwf : ∀ item ∈ items, item.WellFormed)
    (h : Holds m p (encode items)) (hlimit : p + (encode items).length ≤ limit) :
    ∃ q, Comes (tlvNext m) (fun x => Ends m limit x ∨ m x = code) p q ∧
      match firstValue code items with
      | none => q = p + (encode items).length
      | some value => q < limit ∧ optionAt m q = (code, value) := by
  obtain ⟨hne, hfirst⟩ := beforeFirst_spec code items
  cases hvalue : firstValue code items with
  | none =>
    rw [hvalue] at hfirst
    rw [show beforeFirst code items = items from hfirst] at hne hpaired
    exact ⟨_, (tlv_encode hpaired hwf h hlimit).comes_code hcode hne, rfl⟩
  | some value =>
    rw [hvalue] at hfirst
    obtain ⟨rest, hrest⟩ := hfirst
    have hsplit : encode items =
        encode (beforeFirst code items) ++ ((Item.opt code value).encode ++ encode rest) := by
      conv_lhs => rw [hrest]
      rw [encode, List.flatMap_append, List.flatMap_cons]
      rfl
    rw [hsplit] at h hlimit
    obtain ⟨hbefore, hafter⟩ := holds_append.1 h
    obtain ⟨hopt, -⟩ := holds_append.1 hafter
    have hmem {item : Item} (hitem : item ∈ beforeFirst code items ++ .opt code value :: rest) :
        item.WellFormed := hwf item (hrest ▸ hitem)
    have hlen : (Item.opt code value).encode.length = value.length + 2 := rfl
    rw [List.length_append, List.length_append] at hlimit
    have hyields := tlv_encode hpaired (fun i hi => hmem (List.mem_append_left _ hi)) hbefore
      (show p + (encode (beforeFirst code items)).length ≤ limit by omega)
    refine ⟨_, hyields.comes_code hcode hne, by omega, ?_⟩
    exact (opt_encode (hmem (List.mem_append_right _ List.mem_cons_self)) hopt).1

/-! ### A gap of pads -/

theorem holds_replicate {n : Nat} {b : UInt8} (h : ∀ i < n, m (p + i) = b) :
    Holds m p (List.replicate n b) := by
  rw [Holds, List.length_replicate]
  apply List.ext_getElem
  · rw [Mem.length_read, List.length_replicate]
  · intro i hi _
    rw [Mem.length_read] at hi
    rw [List.getElem_replicate]
    simpa [Mem.read] using h i hi

theorem encode_append (items items' : List Item) :
    encode (items ++ items') = encode items ++ encode items' := List.flatMap_append

theorem encode_pads (n : Nat) : encode (List.replicate n .pad) = List.replicate n 0 := by
  induction n with
  | zero => rfl
  | succ n ih =>
    rw [List.replicate_succ, encode, List.flatMap_cons, ← encode, ih]
    rfl

theorem values_pads (n : Nat) (items : List Item) :
    values (List.replicate n .pad ++ items) = values items := by
  induction n with
  | zero => rfl
  | succ n ih => exact ih

theorem PairedPads.gap (h : PairedPads items) (n : Nat) :
    PairedPads (List.replicate (2 * n) .pad ++ items) := by
  induction n with
  | zero => exact h
  | succ n ih => exact .pads ih

/-- A gap of pads of even length is crossed by both readers. -/
theorem gap_yields {reader : Mem → Nat → Nat} (hreader : Reader reader) {n : Nat}
    (hpaired : PairedPads items) (hwf : ∀ item ∈ items, item.WellFormed)
    (hgap : ∀ i < 2 * n, m (p + i) = 0) (h : Holds m (p + 2 * n) (encode items))
    (hlimit : p + (2 * n + (encode items).length) ≤ limit) :
    Yields (reader m) m limit p (p + (2 * n + (encode items).length)) (values items) := by
  have hall : encode (List.replicate (2 * n) .pad ++ items) =
      List.replicate (2 * n) 0 ++ encode items := by
    rw [encode_append, encode_pads]
  have hlen : (encode (List.replicate (2 * n) .pad ++ items)).length =
      2 * n + (encode items).length := by
    rw [hall, List.length_append, List.length_replicate]
  have hholds : Holds m p (encode (List.replicate (2 * n) .pad ++ items)) := by
    rw [hall, holds_append, List.length_replicate]
    exact ⟨holds_replicate hgap, h⟩
  have hwf' : ∀ item ∈ List.replicate (2 * n) .pad ++ items, item.WellFormed := by
    intro item hitem
    rcases List.mem_append.1 hitem with hpad | hitem
    · rw [List.eq_of_mem_replicate hpad]
      exact trivial
    · exact hwf item hitem
  rw [← hlen, ← values_pads (2 * n) items]
  rcases hreader with rfl | rfl
  · exact tlv_encode (hpaired.gap n) hwf' hholds (by omega)
  · exact padded_encode hwf' hholds (by omega)

/-- **Across a gap of pads** of even length both readers come to the same options, and to the END
behind them. -/
theorem gap_encode {reader : Mem → Nat → Nat} (hreader : Reader reader) {n : Nat}
    (hpaired : PairedPads items) (hwf : ∀ item ∈ items, item.WellFormed)
    (hgap : ∀ i < 2 * n, m (p + i) = 0) (h : Holds m (p + 2 * n) (encode items ++ [255]))
    (hlimit : p + (2 * n + (encode items).length) ≤ limit) :
    Comes (reader m) (Ends m limit) p (p + (2 * n + (encode items).length)) ∧
      options (reader m) m limit p = values items := by
  obtain ⟨hitems, hlast⟩ := holds_append.1 h
  have hend : Ends m limit (p + (2 * n + (encode items).length)) := by
    rw [← Nat.add_assoc]
    exact Or.inl (holds_cons.1 hlast).1
  have hyields := gap_yields hreader hpaired hwf hgap hitems hlimit
  exact ⟨hyields.comes, by rw [hyields.options_eq (hreader.lt m), options_end hend,
    List.append_nil]⟩

end Encoded

end OptionWalk
