import ShaderInterface.Analysis
import ShaderInterface.Comment
import ShaderInterface.Declaration.Scan
import ShaderInterface.Glsl.Value
import ShaderInterface.Hint.Merge
import ShaderInterface.Log.Line
import ShaderInterface.Log.Sink
import ShaderInterface.Macro.Substitution
import ShaderInterface.Proofs.Agreement.Hints
import ShaderInterface.Proofs.Analysis.Redeclaration
import ShaderInterface.Proofs.Declaration.Trailing
import ShaderInterface.Proofs.Interface.Integrity
import ShaderInterface.Proofs.Interface.Merge
import ShaderInterface.Proofs.Macro.Completeness
import ShaderInterface.Proofs.Macro.Evaluation
import ShaderInterface.Reflection
import ShaderInterface.Reflection.Gl
import ShaderInterface.Reflection.Scripted
import ShaderInterface.Struct.Expansion
import ShaderInterface.Proofs.Reflection.Calls
import ShaderInterface.Proofs.Reflection.Lifetime
import ShaderInterface.Proofs.Agreement.Plain
import ShaderInterface.Proofs.Hint.Nesting
import ShaderInterface.Proofs.Hint.Depth
import ShaderInterface.Proofs.Hint.Merge
import ShaderInterface.Proofs.Analysis.Comments
import ShaderInterface.Proofs.Analysis.Tolerance
import ShaderInterface.Proofs.Declaration.Grammar
import ShaderInterface.Proofs.Declaration.Matching
import ShaderInterface.Proofs.Declaration.Declarators
import ShaderInterface.Proofs.Analysis.Reported
import ShaderInterface.Proofs.Declaration.Printing
import ShaderInterface.Proofs.Macro.Stall
import ShaderInterface.Proofs.Reflection.Failures
import ShaderInterface.Proofs.Reflection.Recording
import ShaderInterface.Proofs.Macro.Inlining
import ShaderInterface.Proofs.Comment.Idempotence
import ShaderInterface.Proofs.Analysis.Alignment
import ShaderInterface.Proofs.Analysis.Restriction
import ShaderInterface.Proofs.Macro.Words
import ShaderInterface.Proofs.Struct.Enumeration
import ShaderInterface.Proofs.Struct.Printing
import ShaderInterface.Proofs.Macro.Definition
import ShaderInterface.Proofs.Declaration.Search
import ShaderInterface.Proofs.Hint.Rendering
