import SharedPorts.Proofs.Service.Metadata
import SharedPorts.Proofs.Text.Fields
import SharedPorts.Proofs.Text.Integer

/-!
# `SharedPorts.Proofs.Listing` — browse addresses identify ports

The address of a port is made of the name of its workspace, a hyphen, the number of the port and the domain.
A name may itself have hyphens and end in digits, so that `a-1` with port 2 and `a` with port 12 look alike.
The number is still to be had from the address: once the domain is cut off, it is what stands behind the last
hyphen, since there is none in a number.

## Contents
- **Addresses.** `browseUrl_inj_iff`.
- **Listings.** `browseUrl_listingRows` and `Service.rows_of_list`.
- The main statement `browseUrl_identifies`.
-/

namespace SharedPorts

variable {σ S : Type} {labels : PortLabels} {workspace workspace' domain : String} {port port' : Port}
  {ports : List SharedPort} {row row' : ListingRow}

/-! ## Addresses -/

theorem toList_browseUrl (workspace : String) (port : Port) (domain : String) :
    (browseUrl workspace port domain).toList = "https://".toList ++
      (workspace.toList ++ '-' :: (toString port.toNat).toList ++ ('.' :: domain.toList ++ ['/'])) := by
  have hurl : browseUrl workspace port domain =
      "https://" ++ (workspace ++ "-" ++ toString port.toNat ++ ("." ++ domain ++ "/")) := by
    simp only [← String.append_assoc]
    rfl
  rw [hurl]
  simp only [String.toList_append, List.append_assoc]
  rfl

/-- **An address** is that of one workspace and one port. -/
theorem browseUrl_inj_iff :
    browseUrl workspace port domain = browseUrl workspace' port' domain ↔ workspace = workspace' ∧ port = port' := by
  constructor
  · intro h
    have hchars := congrArg String.toList h
    rw [toList_browseUrl, toList_browseUrl] at hchars
    have hparts := List.append_cancel_right (List.append_cancel_left hchars)
    have hhyphen : ∀ n : Nat, '-' ∉ (toString n).toList := Integer.not_mem_toString (by decide)
    obtain ⟨hname, hdigits⟩ := Text.lastField_inj hparts (hhyphen _) (hhyphen _)
    have hnumeral : Integer.Numeral (toString port'.toNat).toList port.toNat :=
      hdigits ▸ Integer.numeral_toString port.toNat
    exact ⟨String.toList_inj.mp hname,
      UInt16.toNat_inj.mp (hnumeral.number_unique (Integer.numeral_toString port'.toNat))⟩
  · rintro ⟨rfl, rfl⟩
    rfl

/-! ## Listings -/

/-- **In the rows of one workspace**, an address is that of one port. -/
theorem browseUrl_listingRows (h : row ∈ listingRows labels workspace domain ports)
    (h' : row' ∈ listingRows labels workspace domain ports) :
    row.browseUrl = row'.browseUrl ↔ row.port = row'.port := by
  obtain ⟨p, -, rfl⟩ := List.mem_map.mp h
  obtain ⟨p', -, rfl⟩ := List.mem_map.mp h'
  exact browseUrl_inj_iff.trans (and_iff_right rfl)

/-- What a listing comes to are the rows of one workspace. -/
theorem Service.rows_of_list {s : Service σ S} {name : String} {r : Run σ} {rows : List ListingRow}
    (h : (s.list name r).1 = .done rows) :
    ∃ labels workspace ports, rows = listingRows labels workspace s.previewDomain ports := by
  by_cases hl : ∃ workspace session ports, s.Lists name r workspace session ports
  · obtain ⟨workspace, session, ports, hl⟩ := hl
    obtain ⟨labels, warning, fired, -, heq⟩ := hl.list_eq (by rw [h]; rfl)
    rw [heq, s.finish_eq session rfl] at h
    exact ⟨labels, workspace, ports, (eq_of_closed_eq_done h).symm⟩
  · obtain ⟨e, r', hfails⟩ := list_of_not_lists fun workspace session ports hlists =>
      hl ⟨workspace, session, ports, hlists⟩
    have hlist : s.list name r =
        (.failed e, (r'.withDeadline r.deadline).write (s.leftover name r r'.state)) :=
      hfails s.backend.labels r.deadline
    rw [hlist] at h
    exact absurd h (by simp)

/-- **Browse addresses identify ports.** Under one domain, the addresses of two ports are equal just if the
    workspaces and the ports are, whatever the names. So in the rows of a workspace, and in what any listing
    comes to, two rows have the same address just if they have the same port. -/
theorem browseUrl_identifies :
    (∀ domain workspace workspace' port port',
      browseUrl workspace port domain = browseUrl workspace' port' domain ↔
        workspace = workspace' ∧ port = port') ∧
    (∀ labels workspace domain ports, ∀ row ∈ listingRows labels workspace domain ports,
      ∀ row' ∈ listingRows labels workspace domain ports,
        row.browseUrl = row'.browseUrl ↔ row.port = row'.port) ∧
    ∀ {σ S : Type} (s : Service σ S) (name : String) (r : Run σ) (rows : List ListingRow),
      (s.list name r).1 = .done rows →
        ∀ row ∈ rows, ∀ row' ∈ rows, row.browseUrl = row'.browseUrl ↔ row.port = row'.port := by
  refine ⟨fun _ _ _ _ _ => browseUrl_inj_iff, fun _ _ _ _ _ h _ h' => browseUrl_listingRows h h', ?_⟩
  intro σ S s name r rows h row hrow row' hrow'
  obtain ⟨labels, workspace, ports, rfl⟩ := Service.rows_of_list h
  exact browseUrl_listingRows hrow hrow'

/-- A workspace whose name ends in a hyphen and a digit, and shares two ports, one of them twice. -/
def hyphened : Service Script.State Unit where
  backend := Script.backend { workspaces := ["a-1"] }
  previewDomain := "1.dev"

def threePorts : Run Script.State where
  state := { ports := [⟨2, "org"⟩, ⟨12, "org"⟩, ⟨2, "private"⟩] }

/-- `a-1` with port 2 is not `a` with port 12; and of three rows just the two of one port share an address. -/
theorem browseUrl_identifies_hyphened :
    browseUrl "a-1" 2 "1.dev" ≠ browseUrl "a" 12 "1.dev" ∧
    ∃ rows, (hyphened.list "a-1" threePorts).1 = .done rows ∧ rows.map (·.port) = [2, 12, 2] ∧
      ∀ row ∈ rows, ∀ row' ∈ rows, row.browseUrl = row'.browseUrl ↔ row.port = row'.port := by
  have hlist : (hyphened.list "a-1" threePorts).1 =
      .done (listingRows .empty "a-1" "1.dev" threePorts.state.ports) := by rfl
  refine ⟨?_, _, hlist, by rfl, browseUrl_identifies.2.2 hyphened "a-1" threePorts _ hlist⟩
  rw [Ne, browseUrl_identifies.1]
  decide

end SharedPorts
