import SharedPorts.Proofs.Listener.Address
import SharedPorts.Proofs.Listener.Scan
import SharedPorts.Proofs.Text.Columns

/-!
# `SharedPorts.Proofs.Listener.Agreement` — two programs show the same sockets

`ss` and `lsof` print the same sockets in different tables: another number of columns, the address in another
place, and hexadecimal devices and offsets among the columns of `lsof`. The two readers find the address in
different ways. Put on two tables of the same sockets they come to the same list, whatever stands in the other
columns and however much blank space between them.

## Contents
- **Hosts.** `IsHost` and `address`; `IsHost.parse?` and `IsHost.mayBeAddress`.
- **Tables.** `SocketRow` and `FileRow`, a line for a socket; `SocketTable` and `FileTable`.
- **First sockets.** `IsFirst`, and `FirstHosts`, the list that both scans come to.
- **Scans.** The main statement `scans_agree`.
-/

namespace SharedPorts.Listener

open Platform

variable {p : Platform} {line : List Char} {lines rows : List (List Char)} {l k : Listener}
  {sockets ls ls' : List Listener}

/-! ## Hosts -/

/-- **A host that both programs may show**: a word that is taken for no device and no offset, and that is
    either without a bracket in front or in brackets, with no colon behind a closing bracket within. -/
structure IsHost (host : List Char) : Prop where
  isWord : Text.IsWord host
  noDevice : ¬ ['0', 'x'] <+: host
  noOffset : ¬ ['0', 't'] <+: host
  cut : host.head? ≠ some '[' ∨ ∃ inner, host = '[' :: inner ++ [']'] ∧ ¬ [']', ':'] <:+: inner

/-- A socket as it is written: its host and its port. -/
def address (l : Listener) : List Char := l.host.toList ++ ':' :: (toString l.port.toNat).toList

/-- **An address is read** as the socket that it writes. -/
theorem IsHost.parse? (h : IsHost l.host.toList) : parse? l.address = some l := by
  have hstands : StandsFor l.host.toList l.host := by
    rcases h.cut with hopen | ⟨inner, hhost, hinner⟩
    · exact .plain rfl h.isWord.1 hopen
    · exact .bracket rfl hhost hinner
  exact hstands.parse? l.port

/-- A colon stands behind the host, so an address begins as a device or an offset only if its host does. -/
theorem not_prefix_address {mark : Char} (hm : mark ≠ ':') (hne : l.host.toList ≠ [])
    (h : ¬ ['0', mark] <+: l.host.toList) : ¬ ['0', mark] <+: l.address := by
  unfold address
  cases hhost : l.host.toList with
  | nil => exact absurd hhost hne
  | cons c host =>
    rw [hhost] at h
    rintro ⟨rest, hrest⟩
    obtain ⟨rfl, hbehind⟩ := List.cons.inj hrest
    cases host with
    | nil => exact hm (List.cons.inj hbehind).1
    | cons d host =>
      obtain ⟨rfl, -⟩ := List.cons.inj hbehind
      exact h ⟨host, rfl⟩

/-- **An address may be an address** in the eyes of the reader of `lsof`. -/
theorem IsHost.mayBeAddress (h : IsHost l.host.toList) : MayBeAddress l.address where
  colon := by simp [address]
  noDevice := not_prefix_address (by decide) h.isWord.1 h.noDevice
  noOffset := not_prefix_address (by decide) h.isWord.1 h.noOffset

/-! ## Tables -/

/-- What `lsof` writes behind the address of a listening socket. -/
def listening : List Char := "(LISTEN)".toList

/-- **A line of `ss`**: the state, two queues, the address and the peer. -/
def SocketRow (l : Listener) (line : List Char) : Prop :=
  ∃ state received sent peer, Text.Spaced [state, received, sent, l.address, peer] line

/-- **A line of `lsof`**: eight columns, the address and the state. -/
def FileRow (l : Listener) (line : List Char) : Prop :=
  ∃ front : List (List Char), front.length = 8 ∧ Text.Spaced (front ++ [l.address, listening]) line

/-- A table of `ss`, with a line for each socket. -/
def SocketTable (sockets : List Listener) (text : String) : Prop :=
  ∃ rows, Text.Lined rows text.toList ∧ List.Forall₂ SocketRow sockets rows

/-- A table of `lsof`, with a header and a line for each socket. -/
def FileTable (sockets : List Listener) (text : String) : Prop :=
  ∃ header rows, Text.Lined (header :: rows) text.toList ∧ List.Forall₂ FileRow sockets rows

/-- A line of `ss` shows its socket. -/
theorem SocketRow.shows {row : List Char} (hrow : SocketRow l row) (hl : IsHost l.host.toList)
    (hwords : Text.words line = Text.words row) : Shows .linux line l := by
  obtain ⟨state, received, sent, peer, hspaced⟩ := hrow
  have hcolumns := (Text.spaced_iff.mp hspaced).1
  exact .linux (hwords.trans hcolumns) hl.parse?

/-- So does a line of `lsof`: there is no colon in its last column, and the one before it is the ninth. -/
theorem FileRow.shows {row : List Char} (hrow : FileRow l row) (hl : IsHost l.host.toList)
    (hwords : Text.words line = Text.words row) : Shows .macOS line l := by
  obtain ⟨front, hlength, hspaced⟩ := hrow
  have hcolumns := (Text.spaced_iff.mp hspaced).1
  refine .macOS (hwords.trans hcolumns) (Nat.le_of_eq hlength.symm) hl.mayBeAddress ?_ hl.parse?
  intro column hcolumn hmay
  rw [List.mem_singleton.mp hcolumn] at hmay
  exact absurd hmay.colon (by decide)

/-- **Rows that show their sockets** do so in the lines that are read of them, which have the same words. -/
theorem forall₂_shows {Row : Listener → List Char → Prop} (hrows : List.Forall₂ Row sockets rows)
    (hwords : lines.map Text.words = rows.map Text.words)
    (hshows : ∀ l ∈ sockets, ∀ row line, Row l row → Text.words line = Text.words row → p.Shows line l) :
    List.Forall₂ (fun l line => p.Shows line l) sockets lines := by
  induction hrows generalizing lines with
  | nil =>
    obtain rfl := List.map_eq_nil_iff.mp hwords
    exact .nil
  | @cons l row sockets rows hrow _ ih =>
    obtain ⟨line, lines, rfl, hline, hlines⟩ := List.map_eq_cons_iff.mp hwords
    obtain ⟨hl, hsockets⟩ := List.forall_mem_cons.mp hshows
    exact .cons (hl row line hrow hline) (ih hlines hsockets)

/-! ## First sockets -/

/-- A socket that is the first one of its port. -/
def IsFirst (sockets : List Listener) (l : Listener) : Prop :=
  ∃ front back, sockets = front ++ l :: back ∧ ∀ k ∈ front, k.port ≠ l.port

/-- **The first socket of each port**: the ports in order and each of them once, just those of the sockets,
    and each with the host of its first socket. -/
structure FirstHosts (sockets ls : List Listener) : Prop where
  ordered : ls.Pairwise (·.port < ·.port)
  port_iff : ∀ port, (∃ l ∈ ls, l.port = port) ↔ ∃ l ∈ sockets, l.port = port
  mem_iff : ∀ l, l ∈ ls ↔ IsFirst sockets l

theorem isFirst_cons_iff : IsFirst (k :: sockets) l ↔ l = k ∨ IsFirst sockets l ∧ k.port ≠ l.port := by
  constructor
  · rintro ⟨front, back, hsockets, hfront⟩
    cases front with
    | nil => exact Or.inl (List.cons.inj hsockets).1.symm
    | cons d front =>
      obtain ⟨rfl, rfl⟩ := List.cons.inj hsockets
      obtain ⟨hd, hfront⟩ := List.forall_mem_cons.mp hfront
      exact Or.inr ⟨⟨front, back, rfl, hfront⟩, hd⟩
  · rintro (rfl | ⟨⟨front, back, rfl, hfront⟩, hk⟩)
    · exact ⟨[], sockets, rfl, fun _ hd => absurd hd List.not_mem_nil⟩
    · exact ⟨k :: front, back, rfl, List.forall_mem_cons.mpr ⟨hk, hfront⟩⟩

/-- In lines with one socket each, the sockets that are shown first are the first ones. -/
theorem showsFirst_iff_isFirst (h : List.Forall₂ (fun l line => p.Shows line l) sockets lines) :
    p.ShowsFirst lines l ↔ IsFirst sockets l := by
  induction h with
  | nil => simp [not_showsFirst_nil, IsFirst]
  | @cons k line sockets lines hk _ ih =>
    have hshows : ∀ k', p.Shows line k' ↔ k' = k :=
      fun k' => ⟨fun hk' => hk'.unique hk, fun heq => heq ▸ hk⟩
    rw [showsFirst_cons_iff, isFirst_cons_iff, ih]
    simp only [hshows, forall_eq]

/-- And those that are shown at all are all of them. -/
theorem exists_shows_iff_mem (h : List.Forall₂ (fun l line => p.Shows line l) sockets lines) :
    (∃ line ∈ lines, p.Shows line l) ↔ l ∈ sockets := by
  induction h with
  | nil => simp
  | @cons k line sockets lines hk _ ih =>
    have hshows : p.Shows line l ↔ l = k := ⟨fun hl => hl.unique hk, fun heq => heq ▸ hk⟩
    rw [List.exists_mem_cons_iff, List.mem_cons, ih, hshows]

/-- **The list of such lines** is that of the first socket of each port. -/
theorem firstHosts_of_lists (h : List.Forall₂ (fun l line => p.Shows line l) sockets lines)
    (hl : p.Lists lines ls) : FirstHosts sockets ls where
  ordered := hl.ordered
  port_iff := by
    intro port
    rw [hl.port_iff]
    constructor
    · rintro ⟨line, hline, l, hshows, hport⟩
      exact ⟨l, (exists_shows_iff_mem h).mp ⟨line, hline, hshows⟩, hport⟩
    · rintro ⟨l, hmem, hport⟩
      obtain ⟨line, hline, hshows⟩ := (exists_shows_iff_mem h).mpr hmem
      exact ⟨line, hline, l, hshows, hport⟩
  mem_iff := by
    intro l
    rw [hl.mem_iff, showsFirst_iff_isFirst h]

/-- There is only one such list. -/
theorem FirstHosts.unique (h : FirstHosts sockets ls) (h' : FirstHosts sockets ls') : ls = ls' := by
  apply eq_of_ordered h.ordered h'.ordered
  intro l
  rw [h.mem_iff, h'.mem_iff]

/-! ## Scans -/

theorem SocketTable.firstHosts {text : String} (h : SocketTable sockets text)
    (hhosts : ∀ l ∈ sockets, IsHost l.host.toList) :
    ∃ ls, scan .linux (some (Utf8.encode text)) = .ok ls ∧ FirstHosts sockets ls := by
  obtain ⟨rows, hlined, hrows⟩ := h
  obtain ⟨ls, hscan, hlists⟩ := scan_lists (p := .linux) (by decide) text
  have hshows : List.Forall₂ (fun l line => Shows .linux line l) sockets (body .linux text) :=
    forall₂_shows hrows hlined.words fun l hl row line hrow hwords => hrow.shows (hhosts l hl) hwords
  exact ⟨ls, hscan, firstHosts_of_lists hshows hlists⟩

theorem FileTable.firstHosts {text : String} (h : FileTable sockets text)
    (hhosts : ∀ l ∈ sockets, IsHost l.host.toList) :
    ∃ ls, scan .macOS (some (Utf8.encode text)) = .ok ls ∧ FirstHosts sockets ls := by
  obtain ⟨header, rows, hlined, hrows⟩ := h
  obtain ⟨ls, hscan, hlists⟩ := scan_lists (p := .macOS) (by decide) text
  have hwords : (body .macOS text).map Text.words = rows.map Text.words := by
    have hall := congrArg (List.drop 1) hlined.words
    rw [← List.map_drop] at hall
    exact hall
  have hshows : List.Forall₂ (fun l line => Shows .macOS line l) sockets (body .macOS text) :=
    forall₂_shows hrows hwords fun l hl row line hrow hwords => hrow.shows (hhosts l hl) hwords
  exact ⟨ls, hscan, firstHosts_of_lists hshows hlists⟩

/-- **The two scans agree.** Of a table of `ss` and a table of `lsof` for the same sockets both read the same
    list: each port once, in order, with the host of its first socket. -/
theorem scans_agree (sockets : List Listener) (hhosts : ∀ l ∈ sockets, IsHost l.host.toList)
    (table files : String) (ht : SocketTable sockets table) (hf : FileTable sockets files) :
    ∃ ls, scan .linux (some (Utf8.encode table)) = .ok ls ∧
      scan .macOS (some (Utf8.encode files)) = .ok ls ∧ FirstHosts sockets ls := by
  obtain ⟨ls, hlinux, hfirst⟩ := ht.firstHosts hhosts
  obtain ⟨ls', hmacOS, hfirst'⟩ := hf.firstHosts hhosts
  rw [hfirst'.unique hfirst] at hmacOS
  exact ⟨ls, hlinux, hmacOS, hfirst⟩

/-- Two sockets on one port, and one whose host has colons without brackets. -/
def threeSockets : List Listener := [⟨80, "[::1]"⟩, ⟨80, "*"⟩, ⟨22, "::ffff:10.0.0.1"⟩]

/-- What `ss` may show of them, with blanks here and there. -/
def socketRows : List (List Char) :=
  ["LISTEN 0 5 [::1]:80 *:*\r".toList, "\tLISTEN 0  5 *:80 [::]:*  ".toList,
    "x:1 0x0 0t0 ::ffff:10.0.0.1:22 :".toList]

/-- What `lsof` may show of them, with colons in the name of a command, in a device and in an offset. -/
def fileRows : List (List Char) :=
  ["node 1 me 19u IPv6 0x3d8 0t0 TCP [::1]:80 (LISTEN)".toList,
    "a:80 1 me 6u IPv4 0x1:2 0t0:1 TCP\t *:80 (LISTEN)\r".toList,
    "sshd 7 root 3u IPv6 0xa 0t0 TCP ::ffff:10.0.0.1:22 (LISTEN)".toList]

theorem socketRows_show : List.Forall₂ SocketRow threeSockets socketRows := by
  refine .cons ⟨"LISTEN".toList, "0".toList, "5".toList, "*:*".toList, ?_⟩
    (.cons ⟨"LISTEN".toList, "0".toList, "5".toList, "[::]:*".toList, ?_⟩
      (.cons ⟨"x:1".toList, "0x0".toList, "0t0".toList, ":".toList, ?_⟩ .nil)) <;>
    exact Text.spaced_iff.mpr ⟨by decide, by decide⟩

theorem fileRows_show : List.Forall₂ FileRow threeSockets fileRows := by
  have hrow : ∀ {l : Listener} {row : List Char}
      (h : (Text.words row).take 8 ++ [l.address, listening] = Text.words row)
      (hlength : ((Text.words row).take 8).length = 8) (hfeed : '\n' ∉ row), FileRow l row :=
    fun h hlength hfeed => ⟨_, hlength, Text.spaced_iff.mpr ⟨h.symm, hfeed⟩⟩
  exact .cons (hrow (by decide) (by decide) (by decide)) (.cons (hrow (by decide) (by decide) (by decide))
    (.cons (hrow (by decide) (by decide) (by decide)) .nil))

/-- A table of `ss` for the three sockets. -/
def threeOfSs : String := String.ofList (Text.unlines socketRows)

/-- A table of `lsof` for them. -/
def threeOfLsof : String := String.ofList (Text.unlines ("COMMAND PID".toList :: fileRows))

theorem threeOfSs_table : SocketTable threeSockets threeOfSs := by
  refine ⟨socketRows, ?_, socketRows_show⟩
  rw [threeOfSs, @String.toList_ofList (Text.unlines _)]
  exact Text.lined_unlines (by decide)

theorem threeOfLsof_table : FileTable threeSockets threeOfLsof := by
  refine ⟨"COMMAND PID".toList, fileRows, ?_, fileRows_show⟩
  rw [threeOfLsof, @String.toList_ofList (Text.unlines _)]
  exact Text.lined_unlines (by decide +kernel)

theorem isHost_threeSockets : ∀ l ∈ threeSockets, IsHost l.host.toList := by
  have hbracket : IsHost "[::1]".toList :=
    ⟨⟨by decide, List.forall_iff_forall_mem.mp (by decide)⟩, by decide, by decide,
      Or.inr ⟨"::1".toList, by decide, by decide⟩⟩
  have hstar : IsHost "*".toList :=
    ⟨⟨by decide, List.forall_iff_forall_mem.mp (by decide)⟩, by decide, by decide, Or.inl (by decide)⟩
  have hcolons : IsHost "::ffff:10.0.0.1".toList :=
    ⟨⟨by decide, List.forall_iff_forall_mem.mp (by decide)⟩, by decide, by decide, Or.inl (by decide)⟩
  simp only [threeSockets, List.forall_mem_cons]
  exact ⟨hbracket, hstar, hcolons, fun _ hl => absurd hl List.not_mem_nil⟩

/-- Of two tables of the three sockets both scans list the port that two of them have with the host of the
    first. -/
theorem scans_agree_thrice :
    (∀ l ∈ threeSockets, IsHost l.host.toList) ∧ SocketTable threeSockets threeOfSs ∧
    FileTable threeSockets threeOfLsof ∧
    ∃ ls, scan .linux (some (Utf8.encode threeOfSs)) = .ok ls ∧
      scan .macOS (some (Utf8.encode threeOfLsof)) = .ok ls ∧
      ⟨80, "[::1]"⟩ ∈ ls ∧ ⟨80, "*"⟩ ∉ ls ∧ ⟨22, "::ffff:10.0.0.1"⟩ ∈ ls := by
  obtain ⟨ls, hlinux, hmacOS, hfirst⟩ :=
    scans_agree threeSockets isHost_threeSockets _ _ threeOfSs_table threeOfLsof_table
  refine ⟨isHost_threeSockets, threeOfSs_table, threeOfLsof_table, ls, hlinux, hmacOS, ?_⟩
  simp [hfirst.mem_iff, threeSockets, isFirst_cons_iff]

end SharedPorts.Listener
