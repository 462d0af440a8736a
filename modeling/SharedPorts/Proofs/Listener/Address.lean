import SharedPorts.Listener.Basic
import SharedPorts.Proofs.Text.Integer

/-!
# `SharedPorts.Proofs.Listener.Address` — the grammar of addresses

The address of a socket is cut in two at a colon. A host in brackets ends at the first closing bracket that
has a colon behind it, and any other host ends at the last colon of all. The port behind it is written in
digits, among which there is no colon, so the two rules come to one: an address is a host, a colon and a port.

## Contents
- **Cuts.** `splitAtLastColon_eq_some_iff` and `splitAtBracket_eq_some_iff`.
- **Grammar.** `StandsFor`, what stands for a host, and `Written`, an address.
- **Addresses.** `parse?_eq_some_iff`, the addresses that are read, and from it `StandsFor.parse?`,
  `parse?_of_bracket` and `parse?_of_beyond`; the main statement `addresses_exact`.
-/

namespace SharedPorts.Listener

variable {cs front back digits inner : List Char} {host : String} {l : Listener} {n : Nat}

/-! ## Cuts -/

theorem splitAtLastColon_eq_none (h : ':' ∉ cs) : splitAtLastColon cs = none := by
  induction cs with
  | nil => rfl
  | cons c cs ih =>
    rw [List.mem_cons, not_or] at h
    obtain ⟨hc, hcs⟩ := h
    simp [splitAtLastColon, ih hcs, Ne.symm hc]

theorem splitAtLastColon_append (h : ':' ∉ back) : splitAtLastColon (front ++ ':' :: back) = some (front, back) := by
  induction front with
  | nil => simp [splitAtLastColon, splitAtLastColon_eq_none h]
  | cons c front ih => simp [splitAtLastColon, ih]

/-- **The last colon** has none behind it. -/
theorem splitAtLastColon_eq_some_iff :
    splitAtLastColon cs = some (front, back) ↔ cs = front ++ ':' :: back ∧ ':' ∉ back := by
  constructor
  · intro h
    by_cases hcolon : ':' ∈ cs
    · obtain ⟨back', front', hcs, hback⟩ := List.eq_append_cons_of_mem (List.mem_reverse.mpr hcolon)
      have hsplit : cs = front'.reverse ++ ':' :: back'.reverse := by
        rw [← List.reverse_reverse cs, hcs]
        simp
      have hnot : ':' ∉ back'.reverse := fun hmem => hback (List.mem_reverse.mp hmem)
      rw [hsplit, splitAtLastColon_append hnot] at h
      obtain ⟨rfl, rfl⟩ := Prod.mk.inj (Option.some.inj h)
      exact ⟨hsplit, hnot⟩
    · rw [splitAtLastColon_eq_none hcolon] at h
      exact absurd h nofun
  · rintro ⟨rfl, hnot⟩
    exact splitAtLastColon_append hnot

/-- A host in brackets ends at a closing bracket that has a colon behind it, and holds no other such. -/
theorem eq_of_splitAtBracket (h : splitAtBracket cs = some (front, back)) :
    cs = front ++ ']' :: ':' :: back ∧ ¬ [']', ':'] <:+: front := by
  fun_induction splitAtBracket cs generalizing front with
  | case1 => exact absurd h nofun
  | case2 rest =>
    obtain ⟨rfl, rfl⟩ := Prod.mk.inj (Option.some.inj h)
    exact ⟨rfl, by simp⟩
  | case3 c rest hnot ih =>
    obtain ⟨⟨inner, behind⟩, hrest, heq⟩ := Option.map_eq_some_iff.mp h
    obtain ⟨rfl, rfl⟩ := Prod.mk.inj heq
    obtain ⟨rfl, hinner⟩ := ih hrest
    refine ⟨rfl, ?_⟩
    -- a bracket and a colon stand at the front, where the rule for them would have cut, or further behind
    rw [List.infix_cons_iff, not_or]
    refine ⟨?_, hinner⟩
    rintro ⟨more, hmore⟩
    obtain ⟨rfl, rfl⟩ := List.cons.inj hmore
    exact hnot _ rfl rfl

/-- And it ends at the first such bracket. -/
theorem splitAtBracket_append (h : ¬ [']', ':'] <:+: inner) :
    splitAtBracket (inner ++ ']' :: ':' :: back) = some (inner, back) := by
  induction inner with
  | nil => rfl
  | cons c inner ih =>
    have hinner : ¬ [']', ':'] <:+: inner := fun hmid => h (hmid.trans (List.suffix_cons c inner).isInfix)
    rw [List.cons_append, splitAtBracket, ih hinner]
    · rfl
    · -- a bracket and a colon at the front would be in the host
      rintro rest rfl hrest
      cases inner with
      | nil => exact absurd (List.cons.inj hrest).1 (by decide)
      | cons d inner =>
        obtain rfl : d = ':' := (List.cons.inj hrest).1
        exact h ⟨[], inner, rfl⟩

/-- **The first closing bracket with a colon behind it** has none such before it. -/
theorem splitAtBracket_eq_some_iff :
    splitAtBracket cs = some (front, back) ↔ cs = front ++ ']' :: ':' :: back ∧ ¬ [']', ':'] <:+: front := by
  constructor
  · exact eq_of_splitAtBracket
  · rintro ⟨rfl, hfront⟩
    exact splitAtBracket_append hfront

/-! ## Grammar -/

/-- **What stands for a host** in front of the colon: nothing for all hosts, and else the host itself, which
    either does not begin with a bracket or is in brackets. -/
inductive StandsFor (front : List Char) (host : String) : Prop
  | all (text : front = []) (hhost : host = "*")
  | plain (text : front = host.toList) (hne : front ≠ []) (hopen : front.head? ≠ some '[')
  | bracket {inner : List Char} (text : front = host.toList) (hfront : front = '[' :: inner ++ [']'])
      (hinner : ¬ [']', ':'] <:+: inner)

/-- **An address**: what stands for the host, a colon, and the number of the port. -/
inductive Written (cs : List Char) (l : Listener) : Prop
  | intro {front digits : List Char} (text : cs = front ++ ':' :: digits) (host : StandsFor front l.host)
      (port : Port.Written digits l.port.toNat)

theorem StandsFor.eq_or (h : StandsFor front host) : front = host.toList ∨ front = [] ∧ host = "*" := by
  cases h with
  | all text hhost => exact Or.inr ⟨text, hhost⟩
  | plain text hne hopen => exact Or.inl text
  | bracket text hfront hinner => exact Or.inl text

/-- A host is cut off at a colon. -/
theorem standsFor_of_split? (h : split? cs = some (host, digits)) :
    ∃ front, cs = front ++ ':' :: digits ∧ StandsFor front host := by
  unfold split? at h
  split at h
  · rename_i rest
    obtain ⟨⟨inner, behind⟩, hcut, heq⟩ := Option.map_eq_some_iff.mp h
    obtain ⟨rfl, rfl⟩ := Prod.mk.inj heq
    obtain ⟨rfl, hinner⟩ := splitAtBracket_eq_some_iff.mp hcut
    exact ⟨'[' :: inner ++ [']'], by simp, .bracket String.toList_ofList.symm rfl hinner⟩
  · rename_i hopen
    obtain ⟨⟨front, behind⟩, hcut, heq⟩ := Option.map_eq_some_iff.mp h
    obtain ⟨rfl, rfl⟩ := Prod.mk.inj heq
    obtain ⟨rfl, -⟩ := splitAtLastColon_eq_some_iff.mp hcut
    refine ⟨front, rfl, ?_⟩
    cases front with
    | nil => exact .all rfl rfl
    | cons c front =>
      refine .plain String.toList_ofList.symm (by simp) ?_
      intro hc
      obtain rfl := Option.some.inj hc
      exact hopen _ rfl

/-- And at that one if no other comes behind it. -/
theorem StandsFor.split? (h : StandsFor front host) (hcolon : ':' ∉ digits) :
    split? (front ++ ':' :: digits) = some (host, digits) := by
  have hlast : splitAtLastColon (front ++ ':' :: digits) = some (front, digits) :=
    splitAtLastColon_append hcolon
  unfold Listener.split?
  cases h with
  | all text hhost =>
    rw [text, List.nil_append] at hlast ⊢
    simp [hlast, hhost]
  | plain text hne hopen =>
    split
    · rename_i rest heq
      have hhead := congrArg List.head? heq
      rw [List.head?_append_of_ne_nil front hne] at hhead
      exact absurd hhead hopen
    · have hhost : String.ofList front = host := by rw [text, String.ofList_toList]
      simp [hlast, hne, hhost]
  | @bracket inner text hfront hinner =>
    have hcut : splitAtBracket (inner ++ ']' :: ':' :: digits) = some (inner, digits) :=
      splitAtBracket_append hinner
    have hhost : String.ofList ('[' :: inner ++ [']']) = host := by rw [← hfront, text, String.ofList_toList]
    rw [hfront]
    simp only [List.cons_append, List.append_assoc, List.nil_append, hcut, Option.map_some] at hhost ⊢
    rw [hhost]

/-! ## Addresses -/

/-- **The addresses that are read** are those that are written. -/
theorem parse?_eq_some_iff : parse? cs = some l ↔ Written cs l := by
  unfold parse?
  simp only [Option.bind_eq_bind, Option.bind_eq_some_iff, Option.pure_def, Option.some.injEq, Prod.exists]
  constructor
  · rintro ⟨host, digits, hsplit, port, hport, rfl⟩
    obtain ⟨front, rfl, hhost⟩ := standsFor_of_split? hsplit
    exact .intro rfl hhost (Port.parse?_eq_some_iff.mp hport)
  · rintro ⟨rfl, hhost, hport⟩
    exact ⟨l.host, _, hhost.split? hport.colon_not_mem, l.port, Port.parse?_eq_some_iff.mpr hport, rfl⟩

/-- **A host and a port are read** from their address. -/
theorem StandsFor.parse? (h : StandsFor front host) (port : Port) :
    parse? (front ++ ':' :: (toString port.toNat).toList) = some ⟨port, host⟩ :=
  parse?_eq_some_iff.mpr (.intro rfl h (Port.written_toString port.toNat))

/-- **A host in brackets is not found** where its only closing bracket has no colon behind it. -/
theorem parse?_of_bracket {more : List Char} {c : Char} (hinner : ']' ∉ inner) (hc : c ≠ ':')
    (hmore : ']' ∉ c :: more) : parse? ('[' :: inner ++ ']' :: c :: more) = none := by
  rw [Option.eq_none_iff_forall_ne_some]
  intro l hl
  obtain ⟨htext, hhost, -⟩ := parse?_eq_some_iff.mp hl
  cases hhost with
  | all text hhost =>
    rw [text] at htext
    exact absurd (List.cons.inj htext).1 (by decide)
  | plain text hne hopen =>
    have hhead := congrArg List.head? htext
    rw [List.head?_append_of_ne_nil _ hne] at hhead
    exact hopen hhead.symm
  | bracket text hfront hother =>
    rw [hfront] at htext
    simp only [List.cons_append, List.append_assoc, List.nil_append, List.cons.injEq, true_and] at htext
    obtain ⟨-, -, hbehind⟩ := (List.append_cons_inj_of_notMem hinner hmore).mp htext
    exact hc (List.cons.inj hbehind).1

/-- **No other port is read** where the number behind the colon is that of none. -/
theorem parse?_of_beyond (h : Port.Written digits n) (hn : 65535 < n) :
    parse? (front ++ ':' :: digits) = none := by
  rw [Option.eq_none_iff_forall_ne_some]
  intro l hl
  obtain ⟨htext, -, hport⟩ := parse?_eq_some_iff.mp hl
  -- the number behind the last colon is the one that is read
  have hcut := splitAtLastColon_eq_some_iff.mpr ⟨htext, hport.colon_not_mem⟩
  rw [splitAtLastColon_append h.colon_not_mem] at hcut
  obtain ⟨-, rfl⟩ := Prod.mk.inj (Option.some.inj hcut)
  have hp : l.port.toNat < 65536 := l.port.toNat_lt
  have heq : n = l.port.toNat := h.unique hport
  omega

/-- **Addresses are read exactly.** A host without brackets is read back with its port, whatever colons are in
    it, and so is a host in brackets. Whatever is read is the host, or nothing for all hosts, with a colon and
    the number of the port behind it. A number that is no port is not read as another one. -/
theorem addresses_exact :
    (∀ (host : String) (port : Port), host ≠ "" → host.toList.head? ≠ some '[' →
      parse? (host.toList ++ ':' :: (toString port.toNat).toList) = some ⟨port, host⟩) ∧
    (∀ (inner : String) (port : Port), ¬ [']', ':'] <:+: inner.toList →
      parse? (("[" ++ inner ++ "]").toList ++ ':' :: (toString port.toNat).toList) =
        some ⟨port, "[" ++ inner ++ "]"⟩) ∧
    (∀ (cs : List Char) (l : Listener), parse? cs = some l → ∃ front digits,
      cs = front ++ ':' :: digits ∧ (front = l.host.toList ∨ front = [] ∧ l.host = "*") ∧
      Port.Written digits l.port.toNat) ∧
    ∀ (front digits : List Char) (n : Nat), Port.Written digits n → 65535 < n →
      parse? (front ++ ':' :: digits) = none := by
  refine ⟨?_, ?_, ?_, ?_⟩
  · intro host port hne hopen
    have hchars : host.toList ≠ [] := fun hnil => hne (String.toList_eq_nil_iff.mp hnil)
    exact (StandsFor.plain rfl hchars hopen).parse? port
  · intro inner port hinner
    have hfront : ("[" ++ inner ++ "]").toList = '[' :: inner.toList ++ [']'] := by simp
    exact (StandsFor.bracket rfl hfront hinner).parse? port
  · intro cs l hl
    obtain ⟨htext, hhost, hport⟩ := parse?_eq_some_iff.mp hl
    exact ⟨_, _, htext, hhost.eq_or, hport⟩
  · intro front digits n hdigits hn
    exact parse?_of_beyond hdigits hn

/-- A host full of colons, one in brackets that ends with a bracket of its own, a port behind a sign and zeros,
    and the number next to the last port. -/
theorem addresses_exact_thorny :
    parse? "::ffff:10.0.0.1:65535".toList = some ⟨65535, "::ffff:10.0.0.1"⟩ ∧
    parse? "[:]a]]:0".toList = some ⟨0, "[:]a]]"⟩ ∧
    (parse? ":+0080".toList = some ⟨80, "*"⟩ ∧ ∃ front digits, ":+0080".toList = front ++ ':' :: digits ∧
      (front = "*".toList ∨ front = []) ∧ Port.Written digits 80) ∧
    Port.Written "65536".toList 65536 ∧ parse? "*:65536".toList = none := by
  obtain ⟨hplain, hbracket, hread, hbeyond⟩ := addresses_exact
  have hall : parse? ":+0080".toList = some ⟨80, "*"⟩ := by decide
  have hwrites : Digits.Writes Integer.digit? "65536".toList [6, 5, 5, 3, 6] := by rfl
  have hnext : Port.Written "65536".toList 65536 := .bare hwrites (by decide)
  refine ⟨?_, ?_, ⟨hall, ?_⟩, hnext, ?_⟩
  · exact hplain "::ffff:10.0.0.1" 65535 (by decide) (by decide)
  · exact hbracket ":]a]" 0 (by decide)
  · obtain ⟨front, digits, htext, hfront, hport⟩ := hread _ _ hall
    exact ⟨front, digits, htext, hfront.imp id And.left, hport⟩
  · exact hbeyond "*".toList "65536".toList 65536 hnext (by decide)

end SharedPorts.Listener
