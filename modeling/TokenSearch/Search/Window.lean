namespace TokenSearch.Search

/-! Token ranges that are fetched together. A search has candidate starts in a file, and needs for
each the tokens of one query width; ranges that touch or overlap share one fetch. -/

/-- The tokens from `first` up to `stop`, and the candidates among them. -/
structure Window where
  first : Int
  stop : Int
  starts : List Int
deriving DecidableEq, Repr

/-- Groups the starts that follow `last`, the end of a group that began at `first`. The group so far
without `last` is `group`, the latest start in front. -/
def windowsFrom (width first : Int) (group : List Int) (last : Int) : List Int → List Window
  | [] => [⟨first, last + width, (last :: group).reverse⟩]
  | start :: rest =>
      if last + width < start then
        ⟨first, last + width, (last :: group).reverse⟩ :: windowsFrom width start [] start rest
      else windowsFrom width first (last :: group) start rest

/-- The fetch windows of the candidates `starts` for a query of the given width. -/
def windows (width : Int) : List Int → List Window
  | [] => []
  | start :: rest => windowsFrom width start [] start rest

end TokenSearch.Search
