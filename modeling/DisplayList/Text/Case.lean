/-!
# Letter case

Lowering the letters `A` to `Z` and leaving every other character alone.
-/

namespace DisplayList

/-- A text with the letters `A` to `Z` lowered. -/
def lowered (s : List Char) : List Char := s.map Char.toLower

@[simp] theorem lowered_nil : lowered [] = [] := rfl

@[simp] theorem lowered_cons (c : Char) (s : List Char) :
    lowered (c :: s) = c.toLower :: lowered s := rfl

@[simp] theorem length_lowered (s : List Char) : (lowered s).length = s.length :=
  List.length_map ..

end DisplayList
