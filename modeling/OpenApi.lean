import OpenApi.Build.Basic
import OpenApi.Build.Options
import OpenApi.Json.Reader
import OpenApi.Json.Writer
import OpenApi.Proofs.Bodies.Contents
import OpenApi.Proofs.Bodies.Refusals
import OpenApi.Proofs.Bodies.Shapes
import OpenApi.Proofs.Build.Links
import OpenApi.Proofs.Build.Naming
import OpenApi.Proofs.Build.Validation
import OpenApi.Proofs.Closure.Unresolved
import OpenApi.Proofs.Composition.Discriminants
import OpenApi.Proofs.Composition.Owners
import OpenApi.Proofs.Composition.Search
import OpenApi.Proofs.Enums.Naming
import OpenApi.Proofs.Extensions.Neutrality
import OpenApi.Proofs.Files.Escapes
import OpenApi.Proofs.Formats.Rebuild
import OpenApi.Proofs.Formats.Views
import OpenApi.Proofs.Location.Pointers
import OpenApi.Proofs.Nulls.Neutrality
import OpenApi.Proofs.Operations.Parameters
import OpenApi.Proofs.Order.Rebuild
import OpenApi.Proofs.Reference.Grammar
import OpenApi.Proofs.Reference.Spellings
import OpenApi.Proofs.Required.Listed
import OpenApi.Proofs.Source.Slices
import OpenApi.Proofs.Spec.Numbers
import OpenApi.Proofs.Strictness.Rebuild
import OpenApi.Proofs.Unread.Report
import OpenApi.Spec.Export
import OpenApi.Spec.Visibility
import OpenApi.Text.Pascal
