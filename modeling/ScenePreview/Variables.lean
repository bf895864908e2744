/-!
# Variables of the surroundings
-/

namespace ScenePreview

/-- The variables of the surroundings. -/
abbrev Variables := List (String × String)

/-- The value of a variable; of several settings the last counts. -/
def Variables.get? (vs : Variables) (name : String) : Option String :=
  (vs.filter (·.1 == name)).getLast?.map (·.2)

end ScenePreview
