/-
The name and the version of the program.
-/
namespace LintDiscovery

/-- The name of the program. -/
def programName : String := "lintkit"

/-- The version of the program, which its log and its reports state. -/
def version : String := "0.1.0"

end LintDiscovery
