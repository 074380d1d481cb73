import TableQuery.Column.Registry

/-! # Tables

A table is a registry of columns with settings, conditions that every query of the table keeps, and
an optional grouping. -/

namespace TableQuery

/-- How a table is searched. -/
structure SearchSettings where
  /-- Whether the search boxes of the columns are heeded. -/
  individual : Bool
  globalMode : SearchMode
  hiddenToo : Bool
deriving DecidableEq, Repr

/-- How a client asks for pages. -/
structure AjaxSettings where
  url : Option String
  method : String
  /-- The number of pages that are fetched ahead. -/
  pipeline : Nat
deriving DecidableEq, Repr

/-- How the results of one query are kept. -/
structure ResultCache where
  enabled : Bool
  /-- For how many seconds; without end if nothing is given. -/
  lifetime : Option Nat
  id : Option String
deriving DecidableEq, Repr

/-- Results are not kept. -/
def ResultCache.off : ResultCache := ⟨false, none, none⟩

/-- How results are kept. -/
structure CacheSettings where
  query : Bool
  countQuery : Bool
  result : ResultCache
  countResult : ResultCache
deriving DecidableEq, Repr

/-- The settings of a table. -/
structure TableSettings where
  search : SearchSettings := ⟨false, .like, false⟩
  /-- Whether it has pages; it does unless it says otherwise. -/
  paging : Option Bool := none
  ajax : AjaxSettings := ⟨none, "GET", 0⟩
  cache : CacheSettings := ⟨false, false, .off, .off⟩
deriving DecidableEq, Repr

/-- Whether the table has pages. -/
def TableSettings.hasPaging (s : TableSettings) : Bool := s.paging.getD true

/-- A table. -/
structure Table where
  name : String
  registry : Registry
  settings : TableSettings
  predicates : List String := []
  groupBy : List Target := []

namespace Table

/-- The table with one more condition that every query keeps. -/
def withPredicate (t : Table) (sql : String) : Table :=
  { t with predicates := t.predicates ++ [sql] }

/-- The table with one more term of the grouping. -/
def withGroupBy (t : Table) (field : String) : Table :=
  { t with groupBy := t.groupBy ++ [Target.ofText field] }

end Table

/-! ### Settings as JSON -/

open Json

namespace SearchSettings

/-- Reads the settings of the search. -/
def decode : Decoder SearchSettings :=
  Decoder.record
    [Decoder.field "individual_filtering" Decoder.bool fun s v => { s with individual := v },
     Decoder.field "global_search_type" (Decoder.word SearchMode.ofName?) fun s v =>
       { s with globalMode := v },
     Decoder.field "search_in_non_visible_columns" Decoder.bool fun s v =>
       { s with hiddenToo := v }]
    ⟨false, .like, false⟩

/-- The settings as an object. -/
def toJson (s : SearchSettings) : Json :=
  Json.object [("individual_filtering", .bool s.individual),
    ("global_search_type", .str s.globalMode.name),
    ("search_in_non_visible_columns", .bool s.hiddenToo)]

end SearchSettings

namespace AjaxSettings

/-- Reads how a client asks for pages. -/
def decode : Decoder AjaxSettings :=
  Decoder.record
    [Decoder.field "url" (Decoder.optional Decoder.text) fun s v => { s with url := v },
     Decoder.field "method" Decoder.text fun s v => { s with method := v },
     Decoder.field "pipeline" (Decoder.intIn 0 4294967295) fun s v =>
       { s with pipeline := v.toNat }]
    ⟨none, "GET", 0⟩

/-- The settings as an object. -/
def toJson (s : AjaxSettings) : Json :=
  Json.object [("url", Json.text? s.url), ("method", .str s.method),
    ("pipeline", Json.nat s.pipeline)]

end AjaxSettings

namespace ResultCache

/-- Reads how results are kept. -/
def decode : Decoder ResultCache :=
  Decoder.record
    [Decoder.field "enabled" Decoder.bool fun c v => { c with enabled := v },
     Decoder.field "lifetime" (Decoder.optional Decoder.nat) fun c v => { c with lifetime := v },
     Decoder.field "cache_id" (Decoder.optional Decoder.text) fun c v => { c with id := v }]
    .off

/-- The settings as an object. -/
def toJson (c : ResultCache) : Json :=
  Json.object [("enabled", .bool c.enabled), ("lifetime", c.lifetime.elim .null Json.nat),
    ("cache_id", Json.text? c.id)]

end ResultCache

namespace CacheSettings

/-- Reads how results are kept. -/
def decode : Decoder CacheSettings :=
  Decoder.record
    [Decoder.field "use_query_cache" Decoder.bool fun c v => { c with query := v },
     Decoder.field "use_count_query_cache" Decoder.bool fun c v => { c with countQuery := v },
     Decoder.field "use_result_cache" ResultCache.decode fun c v => { c with result := v },
     Decoder.field "use_count_result_cache" ResultCache.decode fun c v =>
       { c with countResult := v }]
    ⟨false, false, .off, .off⟩

/-- The settings as an object. -/
def toJson (c : CacheSettings) : Json :=
  Json.object [("use_query_cache", .bool c.query), ("use_count_query_cache", .bool c.countQuery),
    ("use_result_cache", c.result.toJson), ("use_count_result_cache", c.countResult.toJson)]

end CacheSettings

namespace TableSettings

/-- Reads whether a table has pages. -/
def decodePaging : Decoder (Option Bool) :=
  Decoder.record [Decoder.field "paging" (Decoder.optional Decoder.bool) fun _ v => v] none

/-- Reads the settings of a table. -/
def decode : Decoder TableSettings :=
  Decoder.record
    [Decoder.field "options" SearchSettings.decode fun s v => { s with search := v },
     Decoder.field "features" decodePaging fun s v => { s with paging := v },
     Decoder.field "ajax" AjaxSettings.decode fun s v => { s with ajax := v },
     Decoder.field "cache" CacheSettings.decode fun s v => { s with cache := v }]
    { }

/-- The settings as an object. -/
def toJson (s : TableSettings) : Json :=
  Json.object [("options", s.search.toJson),
    ("features", Json.object [("paging", s.paging.elim .null .bool)]),
    ("ajax", s.ajax.toJson), ("cache", s.cache.toJson)]

end TableSettings

end TableQuery
