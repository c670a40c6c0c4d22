import TheNews.Extensions.DateLabels
import TheNews.Extensions.URLForms
import TheNews.MainTabBar.CurrentRecords
import TheNews.MainTabBar.ScreenRuns
import TheNews.MainTabBar.AppTraps
import TheNews.News.ArticleScreens
import TheNews.News.MarkedText
import TheNews.News.MarkupRemoval
import TheNews.NewsFeed.Chronology
import TheNews.NewsFeed.CurrentSource
import TheNews.NewsFeed.DeliveryOrder
import TheNews.NewsFeed.FeedContents
import TheNews.NewsFeed.PendingWork
import TheNews.NewsFeed.ReadMarks
import TheNews.NewsFeed.RefreshSpinner
import TheNews.NewsFeed.Repetition
import TheNews.NewsFeed.TableRows
import TheNews.Service.ExactText
import TheNews.Service.ItemIsolation
import TheNews.Service.TextAttribution
import TheNews.Source.RoundTrip
import TheNews.Source.ScreenHistory
import TheNews.Source.SingleMark
import TheNews.Source.SourceCells
import TheNews.Persistence.FeedObjects
import TheNews.Persistence.ObjectLifetime
import TheNews.Persistence.SavedObjects
