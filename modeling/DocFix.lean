import DocFix.Text.Unicode
import DocFix.Text.Basic
import DocFix.Mdx.Classify
import DocFix.Mdx.Fragments
import DocFix.Mdx.Merge
import DocFix.Mdx.Rerun
import DocFix.Mdx.Escape
import DocFix.Mdx.Tokens
import DocFix.Mdx.EscapeTokens
import DocFix.Mdx.EscapeRerun
import DocFix.Mdx.EscapeLines
import DocFix.Mdx.EmptyBlocks
import DocFix.Mdx.Entities
import DocFix.Mdx.EntityRoundTrip
import DocFix.Mdx.Pipeline
import DocFix.Mdx.PipelineRerun
import DocFix.Mdx.ProcessPath
import DocFix.Links.Rules
import DocFix.Links.FixFile
import DocFix.Links.Main
import DocFix.Links.Targets
