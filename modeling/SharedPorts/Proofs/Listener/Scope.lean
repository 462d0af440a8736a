import SharedPorts.Proofs.IpAddress
import SharedPorts.Proofs.Listener.Address
import SharedPorts.Proofs.Listener.Scan

/-!
# `SharedPorts.Proofs.Listener.Scope` — sockets that are bound to an interface

A socket may listen on one interface only. `ss` then writes the interface behind the host, after a percent
sign: `127.0.0.53%lo:53`. Without brackets the host ends at the last colon, and the interface is part of it.
Behind brackets the interface stands between the closing bracket and the colon, `[fe80::1]%eth0:8080`, where
no end of the host is looked for. Such a line shows nothing, and the port is listed only if another line
shows it.

## Contents
- **Lines.** `Listener.IsInterface` and `Listener.ShowsInterface`.
- **Scans.** `scoped_listed`, and `scoped_lost`, a port that is not listed.
-/

namespace SharedPorts.Listener

open Platform

variable {line interface : List Char} {port : Port} {literal : String} {address : IpAddress}

/-! ## Lines -/

/-- The name of an interface. -/
def IsInterface (interface : List Char) : Prop :=
  interface ≠ [] ∧ ∀ c ∈ interface, c ≠ ':' ∧ c ≠ ']' ∧ Text.isBlank c = false

/-- **A line of `ss` for a socket that is bound to an interface**: of at least five columns the fourth is the
    host with the interface behind it, and the port. -/
def ShowsInterface (line host interface : List Char) (port : Port) : Prop :=
  ∃ state received sent peer more, Text.words line =
    state :: received :: sent :: (host ++ '%' :: interface ++ ':' :: (toString port.toNat).toList) :: peer :: more

theorem IsInterface.bracket_not_mem (h : IsInterface interface) : ']' ∉ interface :=
  fun hmem => (h.2 ']' hmem).2.1 rfl

theorem open_not_mem_literal (h : IpAddress.parse? literal = some address) : '[' ∉ literal.toList :=
  fun hmem => IpAddress.not_plain_bracket.1 (IpAddress.plain_of_parse? h '[' hmem)

theorem close_not_mem_literal (h : IpAddress.parse? literal = some address) : ']' ∉ literal.toList :=
  fun hmem => IpAddress.not_plain_bracket.2 (IpAddress.plain_of_parse? h ']' hmem)

/-- **An address without brackets** is shown with its interface. -/
theorem shows_of_literal (h : IpAddress.parse? literal = some address)
    (hline : ShowsInterface line literal.toList interface port) :
    Shows .linux line ⟨port, literal ++ "%" ++ String.ofList interface⟩ := by
  obtain ⟨state, received, sent, peer, more, hw⟩ := hline
  have hhost : literal.toList ++ '%' :: interface =
      (literal ++ "%" ++ String.ofList interface).toList := by simp
  have hopen : (literal.toList ++ '%' :: interface).head? ≠ some '[' := by
    intro hhead
    cases hchars : literal.toList with
    | nil => simp [hchars] at hhead
    | cons c cs =>
      have hmem : '[' ∈ literal.toList := by simp_all
      exact open_not_mem_literal h hmem
  have hstands : StandsFor (literal.toList ++ '%' :: interface) (literal ++ "%" ++ String.ofList interface) :=
    .plain hhost (by simp) hopen
  exact .linux hw (hstands.parse? port)

/-- **An address in brackets** is not shown when an interface stands behind it. -/
theorem not_shows_of_bracket (h : IpAddress.parse? literal = some address) (hi : IsInterface interface)
    (hline : ShowsInterface line ('[' :: literal.toList ++ [']']) interface port) (l : Listener) :
    ¬ Shows .linux line l := by
  obtain ⟨state, received, sent, peer, more, hw⟩ := hline
  -- the one closing bracket has the percent sign behind it, not the colon
  have hmore : ']' ∉ '%' :: (interface ++ ':' :: (toString port.toNat).toList) := by
    simp only [List.mem_cons, List.mem_append, not_or]
    exact ⟨by decide, hi.bracket_not_mem, by decide, Integer.not_mem_toString (by decide) port.toNat⟩
  have hparse := parse?_of_bracket (close_not_mem_literal h) (by decide) hmore
  intro hshows
  cases hshows with
  | linux hw' ha =>
    rw [hw] at hw'
    simp only [List.cons.injEq] at hw'
    obtain ⟨-, -, -, rfl, -, -⟩ := hw'
    have hnone := hparse
    simp only [List.cons_append, List.append_assoc, List.nil_append] at ha hnone
    rw [hnone] at ha
    exact absurd ha nofun

/-! ## Scans -/

/-- **Sockets that are bound to an interface.** The port of one whose address has no brackets is listed, with
    the host and the interface if no line before shows the port. One in brackets is lost: what is listed are
    the sockets of the other lines. -/
theorem scoped_listed (text : String) (front back : List (List Char)) (line interface : List Char) (port : Port)
    (hlines : Text.lines text.toList = front ++ line :: back) :
    ∃ ls, scan .linux (some (Utf8.encode text)) = .ok ls ∧
      (∀ literal a b c d, IpAddress.parse? literal = some (.v4 a b c d) →
        ShowsInterface line literal.toList interface port →
        (∃ l ∈ ls, l.port = port) ∧
        ((∀ before ∈ front, ∀ k, Shows .linux before k → k.port ≠ port) →
          ⟨port, literal ++ "%" ++ String.ofList interface⟩ ∈ ls)) ∧
      ∀ literal groups, IpAddress.parse? literal = some (.v6 groups) → IsInterface interface →
        ShowsInterface line ('[' :: literal.toList ++ [']']) interface port →
        (∀ l, ¬ Shows .linux line l) ∧ Lists .linux (front ++ back) ls := by
  obtain ⟨ls, hscan, hlists⟩ := scan_lists (p := .linux) (by decide) text
  have hbody : body .linux text = front ++ line :: back := hlines
  rw [hbody] at hlists
  refine ⟨ls, hscan, ?_, ?_⟩
  · intro literal a b c d hliteral hline
    have hshows := shows_of_literal hliteral hline
    refine ⟨(hlists.port_iff port).mpr ⟨line, by simp, _, hshows, rfl⟩, ?_⟩
    intro hbefore
    exact (hlists.mem_iff _).mpr ⟨front, line, back, rfl, hshows, hbefore⟩
  · intro literal groups hliteral hi hline
    have hsilent := not_shows_of_bracket hliteral hi hline
    exact ⟨hsilent, (Alike.without front back hsilent).lists hlists⟩

/-- A line of `ss` for a socket on the loopback interface. -/
def loopbackLine : List Char := "LISTEN 0 5 127.0.0.53%lo:53 *:*".toList

/-- A line of `ss` for a socket in brackets. -/
def bracketLine : List Char := "LISTEN 0 128 [fe80::1]%eth0:8080 [::]:*".toList

/-- A table with that line only. -/
def bracketTable : String := "LISTEN 0 128 [fe80::1]%eth0:8080 [::]:*\n"

/-- A table with both lines. -/
def bothTable : String := "LISTEN 0 5 127.0.0.53%lo:53 *:*\nLISTEN 0 128 [fe80::1]%eth0:8080 [::]:*\n"

theorem loopbackLine_shows : ShowsInterface loopbackLine "127.0.0.53".toList "lo".toList 53 :=
  ⟨"LISTEN".toList, "0".toList, "5".toList, "*:*".toList, [], by decide⟩

theorem bracketLine_shows :
    ShowsInterface bracketLine ('[' :: "fe80::1".toList ++ [']']) "eth0".toList 8080 :=
  ⟨"LISTEN".toList, "0".toList, "128".toList, "[::]:*".toList, [], by decide⟩

theorem isInterface_eth0 : IsInterface "eth0".toList := by
  have hall : "eth0".toList.all fun c => c ≠ ':' ∧ c ≠ ']' ∧ Text.isBlank c = false := by decide
  refine ⟨by decide, ?_⟩
  intro c hc
  exact of_decide_eq_true (List.all_eq_true.mp hall c hc)

/-- Of the table with both lines the port of the former is listed, and that of the latter is not. -/
theorem scoped_listed_either :
    Text.lines bothTable.toList = [loopbackLine, bracketLine] ∧
    ∃ ls, scan .linux (some (Utf8.encode bothTable)) = .ok ls ∧
      ⟨53, "127.0.0.53%lo"⟩ ∈ ls ∧ ∀ l ∈ ls, l.port ≠ 8080 := by
  have hlines : Text.lines bothTable.toList = [loopbackLine, bracketLine] := by decide
  obtain ⟨ls, hscan, hplain, -⟩ := scoped_listed _ [] [bracketLine] loopbackLine "lo".toList 53 hlines
  obtain ⟨ls', hscan', -, hbracket⟩ := scoped_listed _ [loopbackLine] [] bracketLine "eth0".toList 8080 hlines
  obtain rfl : ls = ls' := Except.ok.inj (hscan.symm.trans hscan')
  have hfour : IpAddress.parse? "127.0.0.53" = some (.v4 127 0 0 53) := by decide
  have hsix : IpAddress.parse? "fe80::1" = some (.v6 #v[0xfe80, 0, 0, 0, 0, 0, 0, 1]) := by decide
  have hlisted := (hplain _ _ _ _ _ hfour loopbackLine_shows).2 fun _ hd => absurd hd List.not_mem_nil
  obtain ⟨-, hlists⟩ := hbracket _ _ hsix isInterface_eth0 bracketLine_shows
  refine ⟨hlines, ls, hscan, hlisted, ?_⟩
  intro l hl hport
  obtain ⟨line, hline, k, hshows, hk⟩ := (hlists.port_iff 8080).mp ⟨l, hl, hport⟩
  obtain rfl : line = loopbackLine := by simpa using hline
  have hsame := hshows.unique (shows_of_literal hfour loopbackLine_shows)
  rw [hsame] at hk
  exact absurd hk (by decide)

/-- **A port that is not listed**, though a line with a socket in brackets is all that there is. -/
theorem scoped_lost :
    ¬ ∀ (text : String) (front back : List (List Char)) (line interface : List Char) (port : Port)
        (literal : String) (groups : Vector UInt16 8),
      Text.lines text.toList = front ++ line :: back →
      IpAddress.parse? literal = some (.v6 groups) → IsInterface interface →
      ShowsInterface line ('[' :: literal.toList ++ [']']) interface port →
      ∃ ls, scan .linux (some (Utf8.encode text)) = .ok ls ∧ ∃ l ∈ ls, l.port = port := by
  intro hall
  have hsix : IpAddress.parse? "fe80::1" = some (.v6 #v[0xfe80, 0, 0, 0, 0, 0, 0, 1]) := by decide
  have hlines : Text.lines bracketTable.toList = [bracketLine] := by decide
  obtain ⟨ls, hscan, hlisted⟩ := hall _ [] [] bracketLine _ 8080 _ _ hlines hsix isInterface_eth0 bracketLine_shows
  obtain ⟨ls', hscan', hlists⟩ := scan_lists (p := .linux) (by decide) bracketTable
  obtain rfl : ls = ls' := Except.ok.inj (hscan.symm.trans hscan')
  obtain ⟨line, hline, l, hshows, -⟩ := (hlists.port_iff 8080).mp hlisted
  have hbody : line ∈ Text.lines bracketTable.toList := hline
  rw [hlines] at hbody
  obtain rfl : line = bracketLine := by simpa using hbody
  exact not_shows_of_bracket hsix isInterface_eth0 bracketLine_shows l hshows

end SharedPorts.Listener
