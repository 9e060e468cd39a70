import ChargeScreening.ListEntry
import ChargeScreening.Store.Error

/-!
# The store of list entries

Entries are kept in the order in which they came. Entries of different kinds may share an id.

## Main definitions

* `ListStore`: entries in the order in which they came
* `ListStore.find`: the entries of a kind that are keyed on one of the search keys
* `ListStore.insert`, `ListStore.insertAll`: keeping new entries
-/

namespace ChargeScreening

/-- The list entries that are kept. A store that is set up from given entries may hold an id more
than once. -/
structure ListStore where
  entries : List ListEntry := []

namespace ListStore

/-- The entries of a kind that are keyed on one of the search keys, in the order in which they
came. -/
def find (s : ListStore) (kind : ListKind) (keys : SearchKeys) : List ListEntry :=
  s.entries.filter fun e => e.kind == kind && keys.covers e

/-- Keeps a new entry. Its id has to be free among the entries of its kind. -/
def insert (s : ListStore) (e : ListEntry) : Except StoreError ListStore :=
  if s.entries.any fun t => t.kind == e.kind && t.id == e.id then .error (.conflict e.id)
  else .ok ⟨s.entries ++ [e]⟩

/-- Keeps new entries in turn, up to the first that is refused. Those before it stay. -/
def insertAll (s : ListStore) : List ListEntry → Option StoreError × ListStore
  | [] => (none, s)
  | e :: rest =>
    match s.insert e with
    | .error err => (some err, s)
    | .ok s' => s'.insertAll rest

end ListStore

end ChargeScreening
