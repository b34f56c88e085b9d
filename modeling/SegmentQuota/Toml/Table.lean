import SegmentQuota.Value

/-!
Tables while a TOML document is being read. How a table came about decides what
may still be added to it: one with a header of its own is complete once the
header's section ends, one that a longer header implied may still get its own
header, and one made by a dotted key grows only by dotted keys. Nothing is ever
set twice.
-/

namespace SegmentQuota.Toml

inductive Origin where
  | header
  | implied
  | dotted
  deriving DecidableEq

inductive Node where
  | value (content : Value)
  | table (origin : Origin) (entries : List (String × Node))
  /-- Tables under one repeated header; only the last can still grow. -/
  | tables (earlier : List (List (String × Node))) (last : List (String × Node))

abbrev Entries := List (String × Node)

namespace Entries

def replace (key : String) (node : Node) : Entries → Entries
  | [] => []
  | (name, old) :: rest =>
      if name = key then (key, node) :: rest else (name, old) :: replace key node rest

def assign (value : Value) : List String → Entries → Option Entries
  | [], _ => none
  | [key], entries =>
      match entries.lookup key with
      | none => some (entries ++ [(key, .value value)])
      | some _ => none
  | key :: next :: rest, entries =>
      match entries.lookup key with
      | none =>
          (assign value (next :: rest) []).map fun inner =>
            entries ++ [(key, .table .dotted inner)]
      | some (.table .dotted inner) =>
          (assign value (next :: rest) inner).map fun grown =>
            replace key (.table .dotted grown) entries
      | some (.table .implied inner) =>
          if rest.isEmpty then none
          else
            (assign value (next :: rest) inner).map fun grown =>
              replace key (.table .implied grown) entries
      | some (.tables earlier last) =>
          if rest.isEmpty then none
          else
            (assign value (next :: rest) last).map fun grown =>
              replace key (.tables earlier grown) entries
      | some (.table .header _) | some (.value _) => none

abbrev Pair := List String × Value

def fill : List Pair → Entries → Option Entries
  | [], entries => some entries
  | (path, value) :: rest, entries =>
      match assign value path entries with
      | none => none
      | some next => fill rest next

def addTable (pairs : List Pair) (key : String) (entries : Entries) : Option Entries :=
  match entries.lookup key with
  | none => (fill pairs []).map fun inner => entries ++ [(key, .table .header inner)]
  | some (.table .implied inner) =>
      (fill pairs inner).map fun grown => replace key (.table .header grown) entries
  | some _ => none

def addElement (pairs : List Pair) (key : String) (entries : Entries) : Option Entries :=
  match entries.lookup key with
  | none => (fill pairs []).map fun inner => entries ++ [(key, .tables [] inner)]
  | some (.tables earlier last) =>
      (fill pairs []).map fun inner => replace key (.tables (earlier ++ [last]) inner) entries
  | some _ => none

def addSection (add : String → Entries → Option Entries) :
    List String → Entries → Option Entries
  | [], _ => none
  | [key], entries => add key entries
  | key :: next :: rest, entries =>
      match entries.lookup key with
      | none =>
          (addSection add (next :: rest) []).map fun inner =>
            entries ++ [(key, .table .implied inner)]
      | some (.table origin inner) =>
          (addSection add (next :: rest) inner).map fun grown =>
            replace key (.table origin grown) entries
      | some (.tables earlier last) =>
          (addSection add (next :: rest) last).map fun grown =>
            replace key (.tables earlier grown) entries
      | some (.value _) => none

end Entries

mutual

def Node.toValue : Node → Value
  | .value content => content
  | .table _ entries => .table (finish entries)
  | .tables earlier last => .list (finishAll earlier ++ [.table (finish last)])

def finish : List (String × Node) → List (String × Value)
  | [] => []
  | (key, node) :: rest => (key, node.toValue) :: finish rest

def finishAll : List (List (String × Node)) → List Value
  | [] => []
  | entries :: rest => .table (finish entries) :: finishAll rest

end

end SegmentQuota.Toml
